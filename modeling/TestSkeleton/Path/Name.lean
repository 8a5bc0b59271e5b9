import TestSkeleton.Text.Blank

/-!
# File names and extensions

The name of a source file is read off its path as text: what follows the
last separator, where both `/` and `\` separate, so that a path from any
system gives the same name.  A name is cut at its last dot, but not at a dot
that starts it.
-/

namespace TestSkeleton.Path

/-- The characters that separate directories in a source path. -/
def isNameSeparator (c : Char) : Bool :=
  c == '/' || c == '\\'

/-- What follows the last separator. -/
def fileName (path : List Char) : List Char :=
  (path.reverse.takeWhile (fun c => !isNameSeparator c)).reverse

/-- The part of a name before its last dot and the part after it.  A name
without a dot, or with its only dot in front, has no extension. -/
def splitExtension (name : List Char) : List Char × Option (List Char) :=
  let back := name.reverse
  match back.dropWhile (fun c => c != '.') with
  | [] => (name, none)
  | [_] => (name, none)
  | _ :: stem => (stem.reverse, some (back.takeWhile (fun c => c != '.')).reverse)

/-- The stem of the file that a path names. -/
def stem (path : List Char) : List Char :=
  (splitExtension (fileName path)).1

/-- The extension of the file that a path names. -/
def extension? (path : List Char) : Option (List Char) :=
  (splitExtension (fileName path)).2

/-- The name of a file is what follows its directory. -/
theorem fileName_append {directory name : List Char}
    (hdirectory : ∀ c ∈ directory.getLast?, isNameSeparator c = true)
    (hname : ∀ c ∈ name, isNameSeparator c = false) : fileName (directory ++ name) = name := by
  have hkeep : ∀ c ∈ name.reverse, (fun c => !isNameSeparator c) c = true := by
    intro c hc
    simp [hname c (List.mem_reverse.1 hc)]
  have hstop : directory.reverse.takeWhile (fun c => !isNameSeparator c) = [] := by
    cases hback : directory.reverse with
    | nil => rfl
    | cons c cs =>
      have hlast : directory.getLast? = some c := by
        rw [← List.head?_reverse, hback, List.head?_cons]
      simp [hdirectory c hlast]
  rw [fileName, List.reverse_append, List.takeWhile_append_of_pos hkeep, hstop, List.append_nil,
    List.reverse_reverse]

/-- A path is a directory and the name of a file in it. -/
theorem exists_append_fileName (path : List Char) :
    ∃ directory, (∀ c ∈ directory.getLast?, isNameSeparator c = true) ∧
      path = directory ++ fileName path := by
  refine ⟨Text.dropEndWhile (fun c => !isNameSeparator c) path, ?_, ?_⟩
  · intro c hc
    simpa using Text.getLast?_dropEndWhile _ path c hc
  · rw [fileName, Text.dropEndWhile, ← List.reverse_append, List.takeWhile_append_dropWhile,
      List.reverse_reverse]

/-- The last dot cuts a name. -/
theorem splitExtension_append {name ext : List Char} (hname : name ≠ [])
    (hext : ∀ c ∈ ext, c ≠ '.') : splitExtension (name ++ '.' :: ext) = (name, some ext) := by
  have hback : (name ++ '.' :: ext).reverse = ext.reverse ++ '.' :: name.reverse := by simp
  have hkeep : ∀ c ∈ ext.reverse, (fun c => c != '.') c = true := by
    intro c hc
    exact bne_iff_ne.2 (hext c (List.mem_reverse.1 hc))
  simp only [splitExtension]
  rw [hback, List.dropWhile_append_of_pos hkeep, List.takeWhile_append_of_pos hkeep]
  obtain ⟨c, cs, hcs⟩ := List.exists_cons_of_ne_nil (mt List.reverse_eq_nil_iff.1 hname)
  have hfront : name = (c :: cs).reverse := by rw [← hcs, List.reverse_reverse]
  simp [hfront]

/-- A name with a bare extension, in a directory, is cut at the dot in front
of the extension. -/
theorem splitExtension_fileName_append {directory name ext : List Char}
    (hdirectory : ∀ c ∈ directory.getLast?, isNameSeparator c = true) (hne : name ≠ [])
    (hname : ∀ c ∈ name, isNameSeparator c = false)
    (hext : ∀ c ∈ ext, c ≠ '.' ∧ isNameSeparator c = false) :
    splitExtension (fileName (directory ++ (name ++ '.' :: ext))) = (name, some ext) := by
  rw [fileName_append hdirectory]
  · exact splitExtension_append hne fun c hc => (hext c hc).1
  · intro c hc
    rcases List.mem_append.1 hc with hc | hc
    · exact hname c hc
    · rcases List.mem_cons.1 hc with rfl | hc
      · rfl
      · exact (hext c hc).2

/-- A name with an extension gives its stem back. -/
theorem stem_append {name ext : List Char} (hname : name ≠ [])
    (hnamed : ∀ c ∈ name, isNameSeparator c = false) (hext : ∀ c ∈ ext, c ≠ '.')
    (hbare : ∀ c ∈ ext, isNameSeparator c = false) : stem (name ++ '.' :: ext) = name := by
  have hcut := @splitExtension_fileName_append [] name ext (by simp) hname hnamed
    fun c hc => ⟨hext c hc, hbare c hc⟩
  rw [List.nil_append] at hcut
  rw [stem, hcut]

/-- A name has no separators. -/
theorem not_isNameSeparator_of_mem_fileName {path : List Char} {c : Char}
    (h : c ∈ fileName path) : isNameSeparator c = false := by
  have hkeep := List.all_eq_true.1 List.all_takeWhile c (List.mem_reverse.1 h)
  simpa using hkeep

/-- Cutting off the extension keeps a part of the name. -/
theorem mem_of_mem_splitExtension {name : List Char} {c : Char} :
    (c ∈ (splitExtension name).1 → c ∈ name) ∧
      ∀ ext, (splitExtension name).2 = some ext → c ∈ ext → c ∈ name := by
  simp only [splitExtension]
  split
  · exact ⟨id, fun ext h => nomatch h⟩
  · exact ⟨id, fun ext h => nomatch h⟩
  · rename_i dot stem hback
    constructor
    · intro hc
      have hmem : c ∈ name.reverse.dropWhile (fun c => c != '.') := by
        rw [hback]
        exact List.mem_cons_of_mem _ (List.mem_reverse.1 hc)
      exact List.mem_reverse.1 ((List.dropWhile_sublist _).subset hmem)
    · intro ext hext hc
      cases hext
      exact List.mem_reverse.1 ((List.takeWhile_sublist _).subset (List.mem_reverse.1 hc))

theorem not_isNameSeparator_of_mem_stem {path : List Char} {c : Char} (h : c ∈ stem path) :
    isNameSeparator c = false :=
  not_isNameSeparator_of_mem_fileName (mem_of_mem_splitExtension.1 h)

theorem not_isNameSeparator_of_mem_extension {path ext : List Char} {c : Char}
    (h : extension? path = some ext) (hc : c ∈ ext) : isNameSeparator c = false :=
  not_isNameSeparator_of_mem_fileName (mem_of_mem_splitExtension.2 ext h hc)

/-- The extension starts after the last dot. -/
theorem ne_dot_of_mem_extension {path ext : List Char} {c : Char}
    (h : extension? path = some ext) (hc : c ∈ ext) : c ≠ '.' := by
  simp only [extension?, splitExtension] at h
  split at h
  · cases h
  · cases h
  · cases h
    have hkeep := List.all_eq_true.1 List.all_takeWhile c (List.mem_reverse.1 hc)
    simpa using hkeep

/-- A name that has an extension has a stem. -/
theorem stem_ne_nil {path ext : List Char} (h : extension? path = some ext) : stem path ≠ [] := by
  rw [stem]
  simp only [extension?, splitExtension] at h ⊢
  split at h
  · cases h
  · cases h
  · rename_i dot front hmore hback
    exact fun hnil => hmore (List.reverse_eq_nil_iff.1 hnil)

/-- A name that has an extension is its stem, a dot and the extension. -/
theorem fileName_eq_append {path ext : List Char} (h : extension? path = some ext) :
    fileName path = stem path ++ '.' :: ext := by
  rw [stem]
  simp only [extension?, splitExtension] at h ⊢
  split at h
  · cases h
  · cases h
  · rename_i dot front hmore hback
    cases h
    have hdot : dot = '.' := by
      have hstop := List.head?_dropWhile_not (fun c => c != '.') (fileName path).reverse
      rw [hback] at hstop
      simpa using hstop
    have hname := List.takeWhile_append_dropWhile
      (p := fun c => c != '.') (l := (fileName path).reverse)
    rw [hback, hdot] at hname
    have hfront := congrArg List.reverse hname
    rw [List.reverse_reverse] at hfront
    exact hfront.symm.trans (by simp)

/-- A text is cut at its last dot in one way only. -/
theorem append_dot_inj {front front' ext ext' : List Char}
    (h : front ++ '.' :: ext = front' ++ '.' :: ext') (hext : ∀ c ∈ ext, c ≠ '.')
    (hext' : ∀ c ∈ ext', c ≠ '.') : ext = ext' := by
  have hlast : ∀ front ext : List Char, (∀ c ∈ ext, c ≠ '.') →
      (front ++ '.' :: ext).reverse.takeWhile (fun c => c != '.') = ext.reverse := by
    intro front ext hext
    have hkeep : ∀ c ∈ ext.reverse, (fun c => c != '.') c = true := by
      intro c hc
      exact bne_iff_ne.2 (hext c (List.mem_reverse.1 hc))
    rw [List.reverse_append, List.reverse_cons, List.append_assoc,
      List.takeWhile_append_of_pos hkeep]
    simp
  have hsame := hlast front ext hext
  rw [h, hlast front' ext' hext'] at hsame
  exact (List.reverse_inj.1 hsame).symm

end TestSkeleton.Path
