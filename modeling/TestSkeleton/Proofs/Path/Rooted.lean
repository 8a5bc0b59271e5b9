import TestSkeleton.Proofs.Files.Walking

/-!
# Paths from the root

A path that is made absolute is written in one of few ways: its steps in
order with one slash in front of each, possibly a second slash in front of all
of them, and possibly a slash behind them.

* `segments_injective`: a path is known from its segments, so that two texts
  are compared without looking at their slashes.
* `Rooted` is such a path in its parts, and `Rooted.eq_of_names` says that its
  text is known from its steps and the slashes at its ends.
* `absolute_eq_text` is making a path absolute, and `containingDir_text` and
  `join_text` are what is done to it then.
* `IsTidy` is the same for a path that may be relative.
* `Tree.nominal` is the place that a path names, `..` included, and
  `locate_eq_nominal` that the path leads nowhere else.
-/

namespace TestSkeleton

namespace Text

/-- The fields of a text with the separators between them are the text. -/
theorem intercalate_fields {p : Char → Bool} {sep : Char} (hsep : ∀ c, p c = true → c = sep)
    (cs : List Char) : [sep].intercalate (fields p cs) = cs := by
  induction cs with
  | nil => rfl
  | cons c cs ih =>
    obtain ⟨field, others, hfields⟩ := List.exists_cons_of_ne_nil (fields_ne_nil p cs)
    cases hc : p c with
    | true =>
      rw [fields_cons_of_pos hc, hfields, List.intercalate_cons_cons, ← hfields, ih, hsep c hc]
      rfl
    | false =>
      rw [fields_cons_of_neg hc, hfields, consField]
      rw [hfields] at ih
      cases others with
      | nil =>
        rw [List.intercalate_singleton] at ih ⊢
        rw [ih]
      | cons next others =>
        rw [List.intercalate_cons_cons] at ih ⊢
        rw [List.cons_append, List.cons_append, ih]

end Text

namespace Path

open Files (Place)
open Files.Memory (pathOf)

theorem segments_injective : Function.Injective segments := by
  intro path other h
  have htoList : ∀ path : String, (['/'].intercalate ((segments path).map String.toList)) =
      path.toList := by
    intro path
    rw [segments, List.map_map]
    have hid : String.toList ∘ String.ofList = id := funext fun cs => String.toList_ofList
    rw [hid, List.map_id]
    exact Text.intercalate_fields (fun c hc => beq_iff_eq.1 hc) path.toList
  apply String.toList_injective
  rw [← htoList path, ← htoList other, h]

/-! ## Paths in their parts -/

/-- A path from the root in its parts. -/
structure Rooted where
  /-- Whether two slashes lead the path and not one. -/
  doubled : Bool
  names : List String
  isStep : ∀ name ∈ names, IsStep name
  /-- Whether a slash follows the last name. -/
  slash : Bool

namespace Rooted

variable (parts : Rooted)

/-- The names with a slash in front of each. -/
def slashed (names : List String) : String :=
  String.join (names.map fun name => "/" ++ name)

/-- The text of a path. -/
def text : String :=
  (if parts.doubled then "/" else "") ++ slashed parts.names ++
    (if parts.slash || parts.names.isEmpty then "/" else "")

/-- The segments of the path behind its first slash. -/
def body : List String :=
  (if parts.doubled then [""] else []) ++ parts.names ++
    (if parts.slash || parts.names.isEmpty then [""] else [])

theorem slashed_concat (names : List String) (name : String) :
    slashed (names ++ [name]) = slashed names ++ "/" ++ name := by
  rw [slashed, slashed, List.map_append, List.map_singleton, String.join_append]
  simp [String.append_assoc]

/-- A path is known from its names and the slashes at its ends. -/
theorem eq_of_names {parts other : Rooted} (hnames : parts.names = other.names)
    (hdoubled : parts.doubled = other.doubled) (hslash : parts.slash = other.slash) :
    parts.text = other.text := by
  rw [text, text, hnames, hdoubled, hslash]

/-- A place as a path. -/
def ofPlace (place : Place) (h : ∀ name ∈ place, IsStep name) : Rooted :=
  ⟨false, place, h, false⟩

@[simp] theorem text_ofPlace {place : Place} (h : ∀ name ∈ place, IsStep name) :
    (ofPlace place h).text = pathOf place := by
  cases place with
  | nil => rfl
  | cons name place => simp [ofPlace, text, slashed, pathOf]

theorem segments_text : segments parts.text = "" :: parts.body := by
  have hfront : segments ((if parts.doubled then "/" else "") ++ slashed parts.names) =
      "" :: ((if parts.doubled then [""] else []) ++ parts.names) := by
    have hslashed : segments (slashed parts.names) = "" :: parts.names :=
      segments_slashed parts.isStep
    cases parts.doubled with
    | false =>
      simp only [Bool.false_eq_true, if_false, String.empty_append, List.nil_append]
      exact hslashed
    | true =>
      have hcut : segments ("/" ++ slashed parts.names) =
          segments "" ++ segments (slashed parts.names) :=
        segments_append_slash (by simp)
      rw [if_pos rfl, if_pos rfl, hcut, hslashed]
      rfl
  rw [text, body]
  cases parts.slash || parts.names.isEmpty with
  | false =>
    simp only [Bool.false_eq_true, if_false, String.append_empty, List.append_nil]
    exact hfront
  | true =>
    have hcut : segments ((if parts.doubled then "/" else "") ++ slashed parts.names ++ "/") =
        segments ((if parts.doubled then "/" else "") ++ slashed parts.names) ++ segments "" :=
      segments_append_slash (by simp)
    rw [if_pos rfl, if_pos rfl, hcut, hfront]
    rfl

theorem body_ne_nil : parts.body ≠ [] := by
  rw [body]
  cases parts.names <;> simp

@[simp] theorem isAbsolute_text : isAbsolute parts.text = true := by
  obtain ⟨second, rest, hbody⟩ := List.exists_cons_of_ne_nil parts.body_ne_nil
  exact isAbsolute_iff.2 ⟨second, rest, by rw [segments_text, hbody]⟩

theorem text_ne_empty : parts.text ≠ "" := by
  intro h
  have habs := parts.isAbsolute_text
  rw [h] at habs
  cases habs

@[simp] theorem steps_text : steps parts.text = parts.names := by
  have hkeep : parts.names.filter (fun name => !isVoid name) = parts.names :=
    List.filter_eq_self.2 fun name hname => by simp [(parts.isStep name hname).2]
  rw [steps, segments_text, List.filter_cons_of_neg (by decide), body, List.filter_append,
    List.filter_append, hkeep]
  cases parts.doubled <;> cases parts.slash || parts.names.isEmpty <;> simp [isVoid]

theorem endsWithSlash_text :
    endsWithSlash parts.text = (parts.slash || parts.names.isEmpty) := by
  cases hend : parts.slash || parts.names.isEmpty with
  | true => simp [endsWithSlash, text, hend]
  | false =>
    rw [Bool.eq_false_iff]
    intro hslash
    obtain ⟨front, hfront⟩ := exists_of_endsWithSlash hslash
    have hempty : segments parts.text = segments front ++ segments "" :=
      segments_append_slash (by rw [hfront]; rfl)
    -- the last segment is a name
    have hnames : parts.names ≠ [] := by
      intro hnil
      rw [hnil] at hend
      simp at hend
    obtain ⟨init, last, hlast⟩ := (List.eq_nil_or_concat parts.names).resolve_left hnames
    rw [List.concat_eq_append] at hlast
    have hname : segments parts.text =
        ("" :: ((if parts.doubled then [""] else []) ++ init)) ++ [last] := by
      rw [segments_text, body, hend, hlast]
      simp
    rw [hname, segments_of_isSegment isSegment_empty] at hempty
    have hvoid := (parts.isStep last (by rw [hlast]; simp)).2
    rw [(List.cons.inj (List.append_inj' hempty rfl).2).1] at hvoid
    cases hvoid

theorem startsWithTwoSlashes_text : startsWithTwoSlashes parts.text = parts.doubled := by
  obtain ⟨doubled, names, hstep, slash⟩ := parts
  cases names with
  | nil => cases doubled <;> cases slash <;> simp [startsWithTwoSlashes, text, slashed]
  | cons name names =>
    obtain ⟨hsegment, hvoid⟩ := hstep name (by simp)
    cases hname : name.toList with
    | nil =>
      rw [String.toList_eq_nil_iff.1 hname] at hvoid
      cases hvoid
    | cons c cs =>
      have hc : c ≠ '/' := by
        rintro rfl
        exact hsegment (by rw [hname]; simp)
      cases doubled <;> simp [startsWithTwoSlashes, text, slashed, hname, hc]

/-! ## Going on from a path -/

/-- The path with more names. -/
def extend (names : List String) (h : ∀ name ∈ names, IsStep name) : Rooted where
  doubled := parts.doubled
  names := parts.names ++ names
  isStep name hname := (List.mem_append.1 hname).elim (parts.isStep name) (h name)
  slash := false

theorem join_text {name : String} (h : IsStep name) :
    join parts.text name = (parts.extend [name] (by simpa using h)).text := by
  rw [join, not_isAbsolute_of_isSegment h.1, endsWithSlash_text, text, extend, text,
    slashed_concat]
  have hempty := parts.text_ne_empty
  rw [text] at hempty
  cases hend : parts.slash || parts.names.isEmpty with
  | true => simp [String.append_assoc]
  | false =>
    rw [hend] at hempty
    simp only [Bool.false_eq_true, if_false, String.append_empty] at hempty
    simp [hempty, String.append_assoc]

theorem join_text_empty : join parts.text "" = { parts with slash := true }.text := by
  have habs : isAbsolute "" = false := rfl
  rw [join, habs, endsWithSlash_text]
  have hempty := parts.text_ne_empty
  cases hend : parts.slash || parts.names.isEmpty with
  | true => simp [text, hend]
  | false =>
    have htext : parts.text ++ "/" = { parts with slash := true }.text := by
      simp [text, hend]
    simp [hempty, htext]

theorem foldl_join_text {parts : Rooted} (hslash : parts.slash = false) {names : List String}
    (h : ∀ name ∈ names, IsStep name) :
    names.foldl join parts.text = (parts.extend names h).text := by
  induction names generalizing parts with
  | nil => exact eq_of_names (by simp [extend]) rfl hslash
  | cons name names ih =>
    have hname := h name (by simp)
    rw [List.foldl_cons, parts.join_text hname,
      @ih (parts.extend [name] (by simpa using hname)) rfl fun n hn => h n (by simp [hn])]
    exact eq_of_names (by simp [extend]) rfl rfl

/-! ## Going back -/

theorem segments_ofHeadAndBody {body : List String} (h : ∀ segment ∈ body, IsSegment segment)
    (hbody : body ≠ []) : segments (ofHeadAndBody "/" body) = "" :: body := by
  have hcut : segments (ofHeadAndBody "/" body) =
      segments "" ++ segments (String.ofList (['/'].intercalate (body.map String.toList))) :=
    segments_append_slash (by rw [ofHeadAndBody, String.toList_append]; rfl)
  rw [hcut, segments_intercalate h hbody]
  rfl

/-- What stands behind the last name is dropped, and without names all. -/
theorem dropVoidEnd_append {front names voids : List String} (h : ∀ name ∈ names, IsStep name)
    (hfront : ∀ segment ∈ front, isVoid segment = true)
    (hvoids : ∀ segment ∈ voids, isVoid segment = true) :
    dropVoidEnd (front ++ names ++ voids) = if names = [] then [] else front ++ names := by
  rw [dropVoidEnd, List.reverse_append,
    List.dropWhile_append_of_pos fun segment hsegment => hvoids segment (by simpa using hsegment)]
  rcases List.eq_nil_or_concat names with rfl | ⟨init, last, rfl⟩
  · rw [if_pos rfl, List.append_nil,
      ← List.append_nil front.reverse, List.dropWhile_append_of_pos fun segment hsegment =>
        hfront segment (by simpa using hsegment)]
    rfl
  · have hlast := (h last (by simp)).2
    rw [if_neg (by simp), List.concat_eq_append, ← List.append_assoc, List.reverse_append,
      List.reverse_singleton, List.singleton_append, List.dropWhile_cons_of_neg (by simp [hlast])]
    simp

/-- The path without its last name.  Of two slashes in front, one goes with
the only name. -/
def above : Rooted where
  doubled := parts.doubled && !parts.names.dropLast.isEmpty
  names := parts.names.dropLast
  isStep name hname := parts.isStep name (List.dropLast_subset _ hname)
  slash := false

theorem headAndBody_text : headAndBody parts.text = ("/", parts.body) := by
  obtain ⟨second, rest, hbody⟩ := List.exists_cons_of_ne_nil parts.body_ne_nil
  rw [headAndBody, segments_text, hbody]
  split
  · rename_i hsegments
    cases hsegments
    rfl
  · rename_i hsegments
    exact absurd (List.cons.inj hsegments).1 (by decide)
  · rename_i hroot _
    exact absurd rfl (hroot second rest)

/-- The text of the path without its last name, put together from what is left
of the segments. -/
theorem ofHeadAndBody_above :
    ofHeadAndBody "/" (if parts.above.names = [] then []
      else (if parts.doubled then [""] else []) ++ parts.above.names) = parts.above.text := by
  by_cases hnames : parts.above.names = []
  · have hdoubled : parts.above.doubled = false := by
      have hnil : parts.names.dropLast = [] := hnames
      simp [above, hnil]
    rw [if_pos hnames, text, hnames, hdoubled]
    simp [slashed, ofHeadAndBody]
  · have hsegments : ∀ segment ∈ (if parts.doubled then [""] else []) ++ parts.above.names,
        IsSegment segment := by
      intro segment hsegment
      rcases List.mem_append.1 hsegment with hfirst | hname
      · cases hdoubled : parts.doubled <;> rw [hdoubled] at hfirst
        · cases hfirst
        · rw [List.mem_singleton.1 hfirst]
          exact isSegment_empty
      · exact (parts.above.isStep segment hname).1
    have hdoubled : parts.above.doubled = parts.doubled := by
      have hnil : parts.names.dropLast ≠ [] := hnames
      simp [above, hnil]
    have hslash : parts.above.slash = false := rfl
    apply segments_injective
    rw [if_neg hnames, segments_ofHeadAndBody hsegments (by simp [hnames]), segments_text, body,
      hdoubled, hslash]
    simp [hnames]

/-- The directory of a path. -/
theorem containingDir_text (hnames : parts.names ≠ []) :
    containingDir parts.text = parts.above.text := by
  have hbegin : ∀ segment ∈ (if parts.doubled then [""] else []), isVoid segment = true := by
    cases parts.doubled <;> simp [isVoid]
  have hend : ∀ segment ∈ (if parts.slash || parts.names.isEmpty then [""] else []),
      isVoid segment = true := by
    cases parts.slash || parts.names.isEmpty <;> simp [isVoid]
  have habove : dropVoidEnd ((if parts.doubled then [""] else []) ++ parts.above.names) =
      if parts.above.names = [] then []
      else (if parts.doubled then [""] else []) ++ parts.above.names := by
    have hnothing : ∀ segment ∈ ([] : List String), isVoid segment = true := by simp
    rw [← dropVoidEnd_append parts.above.isStep hbegin hnothing, List.append_nil]
  have hparent : parent? parts.text = some parts.above.text := by
    simp only [parent?, headAndBody_text, body, dropVoidEnd_append parts.isStep hbegin hend,
      if_neg hnames]
    split
    · rename_i hnil
      exact absurd (List.append_eq_nil_iff.1 hnil).2 hnames
    · rw [List.dropLast_append_of_ne_nil hnames, ← ofHeadAndBody_above, ← habove]
      rfl
  rw [containingDir, hparent]
  simp only [String.isEmpty_iff, if_neg (text_ne_empty _)]

end Rooted

/-! ## Paths that are made absolute -/

theorem isAbsolute_of_startsWithTwoSlashes {path : String}
    (h : startsWithTwoSlashes path = true) : isAbsolute path = true := by
  rw [startsWithTwoSlashes] at h
  split at h
  · cases h
  · rename_i rest hpath
    rw [isAbsolute, hpath]
    rfl
  · cases h

/-- The start of a path that is absolute does not depend on the current
directory. -/
theorem absolute_of_isAbsolute {path : String} (h : isAbsolute path = true)
    (current other : String) : absolute current path = absolute other path := by
  simp only [absolute, h, if_true]

theorem isStep_of_mem_lexical {current : Place} (h : ∀ name ∈ current, IsStep name)
    {path name : String} (hname : name ∈ Files.Tree.lexical current path) : IsStep name := by
  rw [Files.Tree.lexical, Files.Tree.startOf] at hname
  rcases List.mem_append.1 hname with hname | hname
  · split at hname
    · cases hname
    · exact h name hname
  · exact isStep_of_mem_steps hname

/-- The parts of a path that is made absolute. -/
def Rooted.ofPath (current : Place) (h : ∀ name ∈ current, IsStep name) (path : String) :
    Rooted where
  doubled := startsWithTwoSlashes path
  names := Files.Tree.lexical current path
  isStep _ hname := isStep_of_mem_lexical h hname
  slash := endsWithSlash path

theorem absolute_eq_text {current : Place} (h : ∀ name ∈ current, IsStep name) (path : String) :
    absolute (pathOf current) path = (Rooted.ofPath current h path).text := by
  have hstart : ∀ name ∈ Files.Tree.startOf current path, IsStep name := by
    intro name hname
    rw [Files.Tree.startOf] at hname
    split at hname
    · cases hname
    · exact h name hname
  let start : Rooted := ⟨startsWithTwoSlashes path, Files.Tree.startOf current path, hstart, false⟩
  have htext : (if isAbsolute path then if startsWithTwoSlashes path then "//" else "/"
      else pathOf current) = start.text := by
    cases habs : isAbsolute path with
    | true =>
      cases hdoubled : startsWithTwoSlashes path <;>
        simp [start, Rooted.text, Rooted.slashed, Files.Tree.startOf, habs, hdoubled]
    | false =>
      have hdoubled : startsWithTwoSlashes path = false := by
        rw [Bool.eq_false_iff]
        intro hdoubled
        rw [isAbsolute_of_startsWithTwoSlashes hdoubled] at habs
        cases habs
      rw [if_neg (by simp), ← Rooted.text_ofPlace h]
      exact Rooted.eq_of_names (by simp [start, Rooted.ofPlace, Files.Tree.startOf, habs])
        hdoubled.symm rfl
  have hwalked := @Rooted.foldl_join_text start rfl (steps path) fun _ => isStep_of_mem_steps
  simp only [absolute, htext, hwalked]
  cases hslash : endsWithSlash path with
  | true =>
    rw [if_pos rfl, Rooted.join_text_empty]
    exact Rooted.eq_of_names rfl rfl hslash.symm
  | false =>
    rw [if_neg (by simp)]
    exact Rooted.eq_of_names rfl rfl hslash.symm

/-- A path with one slash in front, if any, and none at its end is made the
path of a place. -/
theorem absolute_eq_pathOf {current : Place} (h : ∀ name ∈ current, IsStep name) {path : String}
    (hdoubled : startsWithTwoSlashes path = false) (hslash : endsWithSlash path = false) :
    absolute (pathOf current) path = pathOf (Files.Tree.lexical current path) := by
  rw [absolute_eq_text h, ← Rooted.text_ofPlace fun _ => isStep_of_mem_lexical h]
  exact Rooted.eq_of_names rfl hdoubled hslash

/-- Whether a path, if it starts at the root, has no step that goes nowhere
and no slash that could be left out but those at its ends. -/
def IsTidy (path : String) : Prop :=
  isAbsolute path = true → ∃ parts : Rooted, path = parts.text

theorem isTidy_of_not_isAbsolute {path : String} (h : isAbsolute path = false) : IsTidy path := by
  intro habs
  rw [h] at habs
  cases habs

theorem isTidy_pathOf {place : Place} (h : ∀ name ∈ place, IsStep name) :
    IsTidy (pathOf place) :=
  fun _ => ⟨.ofPlace place h, (Rooted.text_ofPlace h).symm⟩

theorem isTidy_absolute {current : Place} (h : ∀ name ∈ current, IsStep name) (path : String) :
    IsTidy (absolute (pathOf current) path) :=
  fun _ => ⟨.ofPath current h path, absolute_eq_text h path⟩

theorem IsTidy.containingDir {path : String} (h : IsTidy path) : IsTidy (containingDir path) := by
  intro habs
  have hpath : isAbsolute path = true := by
    rw [Path.containingDir] at habs
    split at habs
    · rename_i parent hparent
      rw [← (parent?_spec hparent).1]
      split at habs
      · cases habs
      · exact habs
    · cases habs
  obtain ⟨parts, rfl⟩ := h hpath
  by_cases hnames : parts.names = []
  · -- nothing holds the root
    have htext : parts.text = "/" ∨ parts.text = "//" := by
      rw [Rooted.text, hnames]
      cases parts.doubled <;> simp [Rooted.slashed]
    rcases htext with htext | htext <;> rw [htext] at habs <;> exact absurd habs (by decide)
  · exact ⟨_, parts.containingDir_text hnames⟩

/-- A name in a tidy directory has one spelling, up to a second slash in
front. -/
theorem IsTidy.join {directory name : String} (h : IsTidy directory) (hname : IsStep name)
    (habs : isAbsolute (join directory name) = true) :
    ∃ parts : Rooted, parts.slash = false ∧ join directory name = parts.text := by
  rw [isAbsolute_join directory hname.1] at habs
  obtain ⟨parts, rfl⟩ := h habs
  exact ⟨_, rfl, parts.join_text hname⟩

end Path

namespace Files.Tree

/-! ## The place that a path names -/

/-- One step of a path, if every directory on the way exists. -/
def climb (place : Place) (step : String) : Place :=
  if step == ".." then place.dropLast else place ++ [step]

/-- The place that a path names, if every directory on the way exists. -/
def nominal (current : Place) (path : String) : Place :=
  (Path.steps path).foldl climb (startOf current path)

theorem foldl_climb_of_direct {names : List String} (h : ".." ∉ names) (place : Place) :
    names.foldl climb place = place ++ names := by
  induction names generalizing place with
  | nil => simp
  | cons name names ih =>
    have hname : name ≠ ".." := fun hup => h (by simp [hup])
    rw [List.foldl_cons, ih fun hup => h (List.mem_cons_of_mem name hup), climb,
      if_neg (by simpa using hname), List.append_assoc]
    rfl

theorem nominal_eq_lexical {path : String} (h : Path.IsDirect path) (current : Place) :
    nominal current path = lexical current path :=
  foldl_climb_of_direct h _

theorem eq_foldl_of_follow {tree : Tree} {place last : Place} {segments : List String}
    (h : tree.follow place segments = .ok last) :
    last = (segments.filter fun segment => !Path.isVoid segment).foldl climb place := by
  induction segments generalizing place with
  | nil =>
    cases h
    rfl
  | cons segment segments ih =>
    obtain ⟨next, henter, hrest⟩ := follow_cons_ok.1 h
    have hlast := ih hrest
    obtain ⟨-, henters⟩ := enter_eq_ok_iff.1 henter
    cases henters with
    | stay hvoid => rw [List.filter_cons_of_neg (by simp [hvoid]), hlast]
    | up => rw [List.filter_cons_of_pos (by decide), List.foldl_cons, hlast]; rfl
    | down hname hup =>
      rw [List.filter_cons_of_pos (by simp [hname]), List.foldl_cons, hlast, climb,
        if_neg (by simpa using hup)]

/-- A path leads to the place that it names, if it leads anywhere. -/
theorem locate_eq_nominal {tree : Tree} {current place : Place} {path : String}
    (h : tree.locate current path = .ok place) : place = nominal current path :=
  eq_foldl_of_follow (locate_eq_ok.1 h).2

/-- The place that a path leads to is the same in every tree in which it leads
anywhere. -/
theorem LeadsTo.eq_nominal {tree : Tree} {current parent : Place} {path name : String}
    (h : tree.LeadsTo current path parent name) : parent ++ [name] = nominal current path := by
  obtain ⟨front, hsegments, hfollow⟩ := h.walk
  rw [nominal, Path.steps, hsegments, List.filter_append, List.foldl_append,
    ← eq_foldl_of_follow hfollow, List.filter_cons_of_pos (by simp [h.isName.1]), List.filter_nil,
    List.foldl_cons, List.foldl_nil, climb, if_neg (by simpa using h.isName.2)]

theorem isName_of_foldl_climb {names : List String} (hnames : ∀ name ∈ names, Path.IsStep name)
    {place : Place} (h : ∀ name ∈ place, Path.IsName name) :
    ∀ name ∈ names.foldl climb place, Path.IsName name := by
  induction names generalizing place with
  | nil => exact h
  | cons step names ih =>
    rw [List.foldl_cons]
    refine ih (fun name hname => hnames name (List.mem_cons_of_mem step hname)) ?_
    intro name hname
    rw [climb] at hname
    split at hname
    · exact h name (List.dropLast_subset _ hname)
    · rename_i hup
      rcases List.mem_append.1 hname with hname | hname
      · exact h name hname
      · rw [List.mem_singleton.1 hname]
        exact ⟨hnames step List.mem_cons_self, by simpa using hup⟩

/-- What a path leads to has names that do not go up. -/
theorem isName_of_locate {tree : Tree} {current place : Place} {path : String}
    (h : tree.locate current path = .ok place) (hcurrent : ∀ name ∈ current, Path.IsName name) :
    ∀ name ∈ place, Path.IsName name := by
  rw [locate_eq_nominal h]
  refine isName_of_foldl_climb (fun name => Path.isStep_of_mem_steps) ?_
  intro name hname
  rw [startOf] at hname
  split at hname
  · cases hname
  · exact hcurrent name hname

end Files.Tree

end TestSkeleton
