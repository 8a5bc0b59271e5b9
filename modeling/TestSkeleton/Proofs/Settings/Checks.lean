import TestSkeleton.Settings.Basic

/-!
# What the check of the settings asks for

The check of the settings is told here without its scans.

* `IsBare` is about extensions and `IsScopedName` about namespaces, which are
  identifiers with double colons between them.
* `Settings.IsUsable` is what usable settings are, and `Settings.FirstFault`
  is the first thing that is wrong with others.
* `Settings.fault?_eq_none_iff_isUsable` and `Settings.fault?_eq_some_iff` say
  that the check finds just that.
-/

namespace TestSkeleton

/-- Whether a text is an extension: not empty, without dots and without
separators. -/
def IsBare (value : String) : Prop :=
  value ≠ "" ∧ ∀ c ∈ value.toList, c ≠ '.' ∧ c ≠ '/' ∧ c ≠ '\\'

/-- Whether a text is one or more identifiers with double colons between
them. -/
def IsScopedName (value : String) : Prop :=
  ∃ parts : List String, parts ≠ [] ∧
    (∀ part ∈ parts, Settings.isIdentifier part.toList = true) ∧ value = "::".intercalate parts

/-- Whether a text has nothing but blanks. -/
def IsBlankName (value : String) : Prop :=
  ∀ c ∈ value.toList, Text.isBlank c = true

namespace Settings

/-- Whether nothing is wrong with the settings. -/
structure IsUsable (settings : Settings) : Prop where
  sourceExtension : IsBare settings.naming.sourceExtension
  headerExtension : IsBare settings.naming.headerExtension
  testSuffix : settings.naming.testSuffix ≠ ""
  namespaceName : IsScopedName settings.template.namespaceName
  initializers : ∀ typeName ∈ settings.initializers.keys, ¬ IsBlankName typeName

/-- The first thing that is wrong with the settings. -/
inductive FirstFault (settings : Settings) : Fault → Prop where
  | sourceExtension (hsource : ¬ IsBare settings.naming.sourceExtension) :
      FirstFault settings (.sourceExtension settings.naming.sourceExtension)
  | headerExtension (hsource : IsBare settings.naming.sourceExtension)
      (hheader : ¬ IsBare settings.naming.headerExtension) :
      FirstFault settings (.headerExtension settings.naming.headerExtension)
  | emptySuffix (hsource : IsBare settings.naming.sourceExtension)
      (hheader : IsBare settings.naming.headerExtension)
      (hsuffix : settings.naming.testSuffix = "") : FirstFault settings .emptySuffix
  | namespaceName (hsource : IsBare settings.naming.sourceExtension)
      (hheader : IsBare settings.naming.headerExtension) (hsuffix : settings.naming.testSuffix ≠ "")
      (hnamespace : ¬ IsScopedName settings.template.namespaceName) :
      FirstFault settings (.namespaceName settings.template.namespaceName)
  | blankType (hsource : IsBare settings.naming.sourceExtension)
      (hheader : IsBare settings.naming.headerExtension) (hsuffix : settings.naming.testSuffix ≠ "")
      (hnamespace : IsScopedName settings.template.namespaceName) {front back : List String}
      {typeName : String} (hkeys : settings.initializers.keys = front ++ typeName :: back)
      (hfront : ∀ other ∈ front, ¬ IsBlankName other) (hblank : IsBlankName typeName) :
      FirstFault settings (.blankType typeName)

/-! ## The scans -/

theorem isBareExtension_iff {value : String} : isBareExtension value = true ↔ IsBare value := by
  simp [isBareExtension, IsBare, and_assoc]

theorem isBareExtension_eq_false_iff {value : String} :
    isBareExtension value = false ↔ ¬ IsBare value := by
  rw [← isBareExtension_iff, Bool.not_eq_true]

theorem isBlankText_iff {value : String} : isBlankText value = true ↔ IsBlankName value :=
  List.all_eq_true

theorem scopes_ne_nil (cs : List Char) : scopes cs ≠ [] := by
  cases cs using scopes.induct with
  | case1 rest => simp [scopes]
  | case2 c rest hcolons =>
    rw [scopes.eq_2 c rest hcolons, Text.consField.eq_def]
    split <;> simp
  | case3 => simp [scopes]

/-- The scopes of a text, with the colons between them again, are the text. -/
theorem intercalate_scopes (cs : List Char) : [':', ':'].intercalate (scopes cs) = cs := by
  induction cs using scopes.induct with
  | case1 rest ih =>
    obtain ⟨first, others, hscopes⟩ := List.exists_cons_of_ne_nil (scopes_ne_nil rest)
    rw [hscopes] at ih
    rw [scopes, hscopes, List.intercalate_cons_cons, ih]
    rfl
  | case2 c rest hcolons ih =>
    obtain ⟨first, others, hscopes⟩ := List.exists_cons_of_ne_nil (scopes_ne_nil rest)
    rw [hscopes] at ih
    have hcons : [':', ':'].intercalate ((c :: first) :: others) =
        c :: [':', ':'].intercalate (first :: others) := by
      cases others <;> simp [List.intercalate_cons_cons]
    rw [scopes.eq_2 c rest hcolons, hscopes]
    exact hcons.trans (congrArg (c :: ·) ih)
  | case3 => rfl

/-- A part without colons is a scope. -/
theorem scopes_of_no_colons {part : List Char} (h : ∀ c ∈ part, c ≠ ':') : scopes part = [part] := by
  induction part with
  | nil => rfl
  | cons c rest ih =>
    have hcolons : ∀ more, c = ':' → rest = ':' :: more → False :=
      fun _ hc _ => h c List.mem_cons_self hc
    rw [scopes.eq_2 c rest hcolons, ih fun other hother => h other (List.mem_cons_of_mem _ hother)]
    rfl

theorem scopes_append_colons {part : List Char} (h : ∀ c ∈ part, c ≠ ':') (rest : List Char) :
    scopes (part ++ ':' :: ':' :: rest) = part :: scopes rest := by
  induction part with
  | nil => rw [List.nil_append, scopes]
  | cons c part ih =>
    have hcolons : ∀ more, c = ':' → part ++ ':' :: ':' :: rest = ':' :: more → False :=
      fun _ hc _ => h c List.mem_cons_self hc
    rw [List.cons_append, scopes.eq_2 c _ hcolons,
      ih fun other hother => h other (List.mem_cons_of_mem _ hother)]
    rfl

theorem scopes_intercalate {parts : List (List Char)} (hne : parts ≠ [])
    (h : ∀ part ∈ parts, ∀ c ∈ part, c ≠ ':') : scopes ([':', ':'].intercalate parts) = parts := by
  induction parts with
  | nil => exact absurd rfl hne
  | cons part parts ih =>
    have hpart := h part List.mem_cons_self
    cases parts with
    | nil => rw [List.intercalate_singleton, scopes_of_no_colons hpart]
    | cons next parts =>
      have hothers := ih (List.cons_ne_nil next parts) fun other hother =>
        h other (List.mem_cons_of_mem _ hother)
      rw [List.intercalate_cons_cons, List.append_assoc]
      exact (scopes_append_colons hpart _).trans (congrArg (part :: ·) hothers)

theorem ne_colon_of_isIdentifier {cs : List Char} (h : isIdentifier cs = true) :
    ∀ c ∈ cs, c ≠ ':' := by
  cases cs with
  | nil => exact fun _ hc => nomatch hc
  | cons first rest =>
    obtain ⟨hfirst, hrest⟩ := Bool.and_eq_true_iff.1 h
    rintro c hc rfl
    rcases List.mem_cons.1 hc with rfl | hc
    · exact absurd hfirst (by decide)
    · exact absurd (List.all_eq_true.1 hrest ':' hc) (by decide)

theorem isNamespaceName_iff {value : String} :
    isNamespaceName value = true ↔ IsScopedName value := by
  rw [isNamespaceName, List.all_eq_true]
  constructor
  · intro h
    refine ⟨(scopes value.toList).map String.ofList, by simpa using scopes_ne_nil _, ?_, ?_⟩
    · intro part hpart
      obtain ⟨scope, hscope, rfl⟩ := List.mem_map.1 hpart
      rw [String.toList_ofList]
      exact h scope hscope
    · rw [← String.toList_inj, String.toList_intercalate]
      simpa [Function.comp_def] using (intercalate_scopes value.toList).symm
  · rintro ⟨parts, hne, hparts, rfl⟩ scope hscope
    have hparts' : ∀ part ∈ parts.map String.toList, isIdentifier part = true := by
      intro part hpart
      obtain ⟨text, htext, rfl⟩ := List.mem_map.1 hpart
      exact hparts text htext
    rw [String.toList_intercalate] at hscope
    have hscopes := @scopes_intercalate (parts.map String.toList) (by simpa using hne)
      fun part hpart => ne_colon_of_isIdentifier (hparts' part hpart)
    exact hparts' scope (hscopes ▸ hscope)

theorem isNamespaceName_eq_false_iff {value : String} :
    isNamespaceName value = false ↔ ¬ IsScopedName value := by
  rw [← isNamespaceName_iff, Bool.not_eq_true]

/-! ## The check -/

variable {settings : Settings}

theorem isAccepted_iff_isUsable : settings.IsAccepted ↔ settings.IsUsable := by
  constructor
  · intro h
    refine ⟨isBareExtension_iff.1 h.sourceExtension, isBareExtension_iff.1 h.headerExtension,
      h.testSuffix, isNamespaceName_iff.1 h.namespaceName, fun typeName hmem hblank => ?_⟩
    exact Bool.eq_false_iff.1 (h.initializers typeName hmem) (isBlankText_iff.2 hblank)
  · intro h
    exact ⟨isBareExtension_iff.2 h.sourceExtension, isBareExtension_iff.2 h.headerExtension,
      h.testSuffix, isNamespaceName_iff.2 h.namespaceName, fun typeName hmem =>
        Bool.eq_false_iff.2 fun hblank => h.initializers typeName hmem (isBlankText_iff.1 hblank)⟩

/-- The check accepts just the usable settings. -/
theorem fault?_eq_none_iff_isUsable : settings.fault? = none ↔ settings.IsUsable :=
  fault?_eq_none_iff.trans isAccepted_iff_isUsable

/-- The check reports the first fault. -/
theorem FirstFault.fault?_eq {fault : Fault} (h : settings.FirstFault fault) :
    settings.fault? = some fault := by
  cases h with
  | sourceExtension hsource =>
    rw [fault?, if_pos (by simpa [isBareExtension_eq_false_iff] using hsource)]
  | headerExtension hsource hheader =>
    rw [fault?, if_neg (by simpa [isBareExtension_iff] using hsource),
      if_pos (by simpa [isBareExtension_eq_false_iff] using hheader)]
  | emptySuffix hsource hheader hsuffix =>
    rw [fault?, if_neg (by simpa [isBareExtension_iff] using hsource),
      if_neg (by simpa [isBareExtension_iff] using hheader), if_pos (by simpa using hsuffix)]
  | namespaceName hsource hheader hsuffix hnamespace =>
    rw [fault?, if_neg (by simpa [isBareExtension_iff] using hsource),
      if_neg (by simpa [isBareExtension_iff] using hheader), if_neg (by simpa using hsuffix),
      if_pos (by simpa [isNamespaceName_eq_false_iff] using hnamespace)]
  | @blankType hsource hheader hsuffix hnamespace front back typeName hkeys hfront hblank =>
    have hnone : front.find? isBlankText = none := by
      rw [List.find?_eq_none]
      exact fun other hother hblank => hfront other hother (isBlankText_iff.1 hblank)
    rw [fault?, if_neg (by simpa [isBareExtension_iff] using hsource),
      if_neg (by simpa [isBareExtension_iff] using hheader), if_neg (by simpa using hsuffix),
      if_neg (by simpa [isNamespaceName_iff] using hnamespace), hkeys, List.find?_append, hnone,
      List.find?_cons_of_pos (isBlankText_iff.2 hblank)]
    rfl

/-- There is a first fault unless the settings are usable. -/
theorem exists_firstFault (h : ¬ settings.IsUsable) : ∃ fault, settings.FirstFault fault := by
  by_cases hsource : IsBare settings.naming.sourceExtension
  · by_cases hheader : IsBare settings.naming.headerExtension
    · by_cases hsuffix : settings.naming.testSuffix = ""
      · exact ⟨_, .emptySuffix hsource hheader hsuffix⟩
      · by_cases hnamespace : IsScopedName settings.template.namespaceName
        · cases hfind : settings.initializers.keys.find? isBlankText with
          | none =>
            refine absurd ⟨hsource, hheader, hsuffix, hnamespace, fun typeName hmem hblank => ?_⟩ h
            exact List.find?_eq_none.1 hfind typeName hmem (isBlankText_iff.2 hblank)
          | some typeName =>
            obtain ⟨hblank, front, back, hkeys, hfront⟩ := List.find?_eq_some_iff_append.1 hfind
            refine ⟨_, .blankType hsource hheader hsuffix hnamespace hkeys (fun other hmem hother => ?_)
              (isBlankText_iff.1 hblank)⟩
            have hvisible := hfront other hmem
            rw [isBlankText_iff.2 hother] at hvisible
            cases hvisible
        · exact ⟨_, .namespaceName hsource hheader hsuffix hnamespace⟩
    · exact ⟨_, .headerExtension hsource hheader⟩
  · exact ⟨_, .sourceExtension hsource⟩

theorem fault?_eq_some_iff {fault : Fault} :
    settings.fault? = some fault ↔ settings.FirstFault fault := by
  refine ⟨fun h => ?_, FirstFault.fault?_eq⟩
  have hunusable : ¬ settings.IsUsable := by
    rw [← fault?_eq_none_iff_isUsable, h]
    simp
  obtain ⟨first, hfirst⟩ := exists_firstFault hunusable
  rw [hfirst.fault?_eq] at h
  exact Option.some.inj h ▸ hfirst

end Settings

end TestSkeleton
