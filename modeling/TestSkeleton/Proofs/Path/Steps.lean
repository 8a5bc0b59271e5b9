import TestSkeleton.Path.Parts
import TestSkeleton.Files.Memory

/-!
# The steps of joined paths

A path is walked by its segments, of which those that go nowhere are skipped.
What the operations on path texts do to the walk is said here once, so that
no other module looks at slashes.

* `segments_append_slash` and `steps_join`: joining texts is joining walks.
* `parent?_spec`: the parent leaves out the last step.
* `steps_absolute` and `steps_pathOf`: a path from the root walks to the
  current directory first.
-/

namespace TestSkeleton.Path

/-! ## Segments -/

/-- Whether a text may stand between two slashes. -/
def IsSegment (name : String) : Prop :=
  '/' ∉ name.toList

/-- Whether a text is a step of a path that goes somewhere. -/
def IsStep (name : String) : Prop :=
  IsSegment name ∧ isVoid name = false

/-- Whether a text names something in a directory. -/
def IsName (name : String) : Prop :=
  IsStep name ∧ name ≠ ".."

theorem isSegment_of_mem_segments {path segment : String} (h : segment ∈ segments path) :
    IsSegment segment := by
  obtain ⟨field, hfield, rfl⟩ := List.mem_map.1 h
  intro hslash
  rw [String.toList_ofList] at hslash
  have hsep := Text.not_mem_of_mem_fields hfield '/' hslash
  cases hsep

theorem isStep_of_mem_steps {path step : String} (h : step ∈ steps path) : IsStep step := by
  obtain ⟨hsegment, hvoid⟩ := List.mem_filter.1 h
  exact ⟨isSegment_of_mem_segments hsegment, by simpa using hvoid⟩

theorem segments_ne_nil (path : String) : segments path ≠ [] := by
  intro h
  exact Text.fields_ne_nil _ _ (List.map_eq_nil_iff.1 h)

theorem segments_of_isSegment {name : String} (h : IsSegment name) : segments name = [name] := by
  have hsep : ∀ c ∈ name.toList, (fun c => c == '/') c = false := by
    intro c hc
    exact beq_eq_false_iff_ne.2 fun hslash => h (hslash ▸ hc)
  rw [segments, Text.fields_eq_singleton hsep, List.map_cons, List.map_nil, String.ofList_toList]

/-- The segments of two texts with a slash between them. -/
theorem segments_append_slash {base next text : String}
    (h : text.toList = base.toList ++ '/' :: next.toList) :
    segments text = segments base ++ segments next := by
  rw [segments, h, Text.fields_append_cons (by rfl), List.map_append]
  rfl

theorem steps_of_segments_append {path base next : String}
    (h : segments path = segments base ++ segments next) :
    steps path = steps base ++ steps next := by
  rw [steps, h, List.filter_append]
  rfl

theorem steps_empty : steps "" = [] := by decide

theorem steps_of_isStep {name : String} (h : IsStep name) : steps name = [name] := by
  rw [steps, segments_of_isSegment h.1]
  simp [h.2]

/-! ## Joining -/

theorem exists_of_isAbsolute {path : String} (h : isAbsolute path = true) :
    ∃ rest : List Char, path.toList = '/' :: rest := by
  cases hcs : path.toList with
  | nil =>
    rw [isAbsolute, hcs] at h
    cases h
  | cons c rest =>
    rw [isAbsolute, hcs] at h
    have hc : c = '/' := by simpa using h
    exact ⟨rest, by rw [hc]⟩

theorem exists_of_endsWithSlash {path : String} (h : endsWithSlash path = true) :
    ∃ front : String, path.toList = front.toList ++ ['/'] := by
  have hlast : path.toList.getLast? = some '/' := beq_iff_eq.1 h
  obtain ⟨front, hfront⟩ := List.getLast?_eq_some_iff.1 hlast
  exact ⟨String.ofList front, by rw [String.toList_ofList, hfront]⟩

theorem not_isAbsolute_of_isSegment {name : String} (h : IsSegment name) :
    isAbsolute name = false := by
  by_cases habs : isAbsolute name = true
  · obtain ⟨rest, hrest⟩ := exists_of_isAbsolute habs
    exact absurd (show '/' ∈ name.toList by rw [hrest]; exact List.mem_cons_self) h
  · exact Bool.eq_false_iff.2 habs

/-- The steps of a text followed by a slash are the steps of the text. -/
theorem steps_slash_end {path front : String} (h : path.toList = front.toList ++ ['/']) :
    steps path = steps front := by
  have hsegments : segments path = segments front ++ segments "" :=
    segments_append_slash (by rw [h]; rfl)
  rw [steps_of_segments_append hsegments, steps_empty, List.append_nil]

/-- What is walked after a join. -/
theorem steps_join (base next : String) :
    steps (join base next) = (if isAbsolute next then [] else steps base) ++ steps next := by
  rw [join]
  by_cases habs : isAbsolute next = true
  · rw [if_pos habs, if_pos habs, List.nil_append]
  rw [if_neg habs, if_neg habs]
  by_cases hempty : base.isEmpty = true
  · have hb : base = "" := by simpa using hempty
    subst hb
    simp [steps_empty]
  by_cases hslash : endsWithSlash base = true
  · obtain ⟨front, hfront⟩ := exists_of_endsWithSlash hslash
    have hsegments : segments (base ++ next) = segments front ++ segments next :=
      segments_append_slash (by rw [String.toList_append, hfront, List.append_assoc]; rfl)
    rw [if_pos (by simp [hslash]), steps_of_segments_append hsegments, steps_slash_end hfront]
  · have hsegments : segments (base ++ "/" ++ next) = segments base ++ segments next :=
      segments_append_slash (by simp)
    rw [if_neg (by simp_all), steps_of_segments_append hsegments]

/-- A name that is joined to a path is its last segment. -/
theorem getLast?_segments_join (base : String) {name : String} (h : IsSegment name) :
    (segments (join base name)).getLast? = some name := by
  rw [join, not_isAbsolute_of_isSegment h, if_neg (by simp)]
  by_cases hempty : base.isEmpty = true
  · have hb : base = "" := by simpa using hempty
    subst hb
    simp [segments_of_isSegment h]
  by_cases hslash : endsWithSlash base = true
  · obtain ⟨front, hfront⟩ := exists_of_endsWithSlash hslash
    have hsegments : segments (base ++ name) = segments front ++ segments name :=
      segments_append_slash (by rw [String.toList_append, hfront, List.append_assoc]; rfl)
    rw [if_pos (by simp [hslash]), hsegments, segments_of_isSegment h, List.getLast?_concat]
  · have hsegments : segments (base ++ "/" ++ name) = segments base ++ segments name :=
      segments_append_slash (by simp)
    rw [if_neg (by simp_all), hsegments, segments_of_isSegment h, List.getLast?_concat]

/-- A text that does not end with a slash ends with a segment that is not
empty. -/
theorem exists_segments_concat {path : String} (hne : path ≠ "")
    (hslash : endsWithSlash path = false) :
    ∃ front last, segments path = front ++ [last] ∧ last.isEmpty = false := by
  have hcs : path.toList ≠ [] := fun h => hne (String.toList_eq_nil_iff.1 h)
  obtain ⟨init, c, hpath⟩ := (List.eq_nil_or_concat path.toList).resolve_left hcs
  rw [List.concat_eq_append] at hpath
  have hc : c ≠ '/' := by
    rintro rfl
    rw [endsWithSlash, hpath, List.getLast?_concat] at hslash
    cases hslash
  obtain ⟨front, field, hfields⟩ := Text.exists_fields_concat
    (p := fun c => c == '/') (beq_eq_false_iff_ne.2 hc) init
  refine ⟨front.map String.ofList, String.ofList (field ++ [c]), ?_, ?_⟩
  · rw [segments, hpath, hfields, List.map_append]
    rfl
  · rw [Bool.eq_false_iff]
    intro hempty
    have htext := congrArg String.toList (String.isEmpty_iff.1 hempty)
    rw [String.toList_ofList] at htext
    simp at htext

theorem isAbsolute_append {head : String} (text : String) (h : head ≠ "") :
    isAbsolute (head ++ text) = isAbsolute head := by
  rw [isAbsolute, isAbsolute, String.toList_append, List.head?_append]
  cases hhead : head.toList.head? with
  | none => exact absurd (String.toList_eq_nil_iff.1 (List.head?_eq_none_iff.1 hhead)) h
  | some c => rfl

/-- A name in a directory starts where the directory starts. -/
theorem isAbsolute_join (base : String) {name : String} (h : IsSegment name) :
    isAbsolute (join base name) = isAbsolute base := by
  have hname := not_isAbsolute_of_isSegment h
  rw [join, hname, if_neg (by simp)]
  by_cases hempty : base = ""
  · subst hempty
    rw [if_pos (by rfl), String.empty_append, hname]
    rfl
  split
  · exact isAbsolute_append name hempty
  · rw [String.append_assoc]
    exact isAbsolute_append ("/" ++ name) hempty

/-! ## The parent -/

/-- What a start of `headAndBody` asks of the segments after it. -/
inductive FitsHead : String → List String → Prop where
  | root (body : List String) : FitsHead "/" body
  | bare (body : List String) (hfirst : ∀ second rest, body ≠ "" :: second :: rest) :
      FitsHead "" body
  | dotAlone : FitsHead "." []
  | dot (rest : List String) : FitsHead "." ("" :: rest)

theorem FitsHead.isPrefix {head : String} {body front : List String} (h : FitsHead head body)
    (hfront : front <+: body) : FitsHead head front := by
  cases h with
  | root => exact .root front
  | bare _ hfirst =>
    refine .bare front ?_
    rintro second rest rfl
    obtain ⟨back, hbody⟩ := hfront
    exact hfirst second (rest ++ back) hbody.symm
  | dotAlone =>
    rw [List.prefix_nil.1 hfront]
    exact .dotAlone
  | dot rest =>
    rcases List.prefix_cons_iff.1 hfront with rfl | ⟨others, rfl, -⟩
    · exact .dotAlone
    · exact .dot others

theorem segments_intercalate {body : List String} (h : ∀ segment ∈ body, IsSegment segment)
    (hne : body ≠ []) :
    segments (String.ofList (['/'].intercalate (body.map String.toList))) = body := by
  induction body with
  | nil => exact absurd rfl hne
  | cons segment rest ih =>
    cases rest with
    | nil =>
      rw [List.map_cons, List.map_nil, List.intercalate_singleton, String.ofList_toList]
      exact segments_of_isSegment (h segment (by simp))
    | cons next rest =>
      have hrest := ih (fun s hs => h s (by simp [hs])) (by simp)
      have htext : (String.ofList (['/'].intercalate
          ((segment :: next :: rest).map String.toList))).toList = segment.toList ++
          '/' :: (String.ofList (['/'].intercalate ((next :: rest).map String.toList))).toList := by
        rw [List.map_cons, List.map_cons, List.intercalate_cons_cons, String.toList_ofList,
          String.toList_ofList, ← List.map_cons, List.append_assoc]
        rfl
      rw [segments_append_slash htext, hrest, segments_of_isSegment (h segment (by simp))]
      rfl

/-- The steps of a path that is put together from its parts. -/
theorem steps_ofHeadAndBody {head : String} {body : List String}
    (h : ∀ segment ∈ body, IsSegment segment) (hfits : FitsHead head body) :
    steps (ofHeadAndBody head body) = body.filter (fun segment => !isVoid segment) := by
  have hbody : ∀ body : List String, (∀ segment ∈ body, IsSegment segment) →
      steps (String.ofList (['/'].intercalate (body.map String.toList))) =
        body.filter (fun segment => !isVoid segment) := by
    intro body h
    by_cases hne : body = []
    · subst hne
      exact steps_empty
    · rw [steps, segments_intercalate h hne]
  rw [ofHeadAndBody]
  cases hfits with
  | root =>
    have htext (text : String) : ("/" ++ text).toList = "".toList ++ '/' :: text.toList := by
      rw [String.toList_append]
      rfl
    rw [steps_of_segments_append (segments_append_slash (htext _)), steps_empty, List.nil_append]
    exact hbody body h
  | bare =>
    rw [String.empty_append]
    exact hbody body h
  | dotAlone => decide
  | dot rest =>
    cases rest with
    | nil => decide
    | cons next rest =>
      have htext : ("." ++ String.ofList (['/'].intercalate
          (("" :: next :: rest).map String.toList))).toList = ".".toList ++
          '/' :: (String.ofList (['/'].intercalate ((next :: rest).map String.toList))).toList := by
        rw [List.map_cons, List.map_cons, List.intercalate_cons_cons, String.toList_append,
          String.toList_ofList, String.toList_ofList, ← List.map_cons]
        simp
      rw [steps_of_segments_append (segments_append_slash htext),
        hbody (next :: rest) fun s hs => h s (by simp [hs])]
      rfl

/-- A path and its parts. -/
theorem headAndBody_spec (path : String) :
    FitsHead (headAndBody path).1 (headAndBody path).2 ∧
      (∀ segment ∈ (headAndBody path).2, IsSegment segment) ∧
      steps path = (headAndBody path).2.filter (fun segment => !isVoid segment) := by
  have hall : ∀ segment ∈ segments path, IsSegment segment :=
    fun segment => isSegment_of_mem_segments
  rw [headAndBody, steps]
  split
  · rename_i second rest hsegments
    rw [hsegments] at hall ⊢
    exact ⟨.root _, fun s hs => hall s (by simp [hs]), rfl⟩
  · rename_i rest hsegments
    rw [hsegments] at hall ⊢
    cases rest with
    | nil => exact ⟨.dotAlone, by simp, rfl⟩
    | cons next rest =>
      refine ⟨.dot (next :: rest), ?_, rfl⟩
      intro s hs
      rcases List.mem_cons.1 hs with rfl | hs
      · exact fun h => nomatch h
      · exact hall s (by simp [hs])
  · rename_i hroot hdot
    exact ⟨.bare _ hroot, hall, rfl⟩

/-- A path starts at the root if its first segment is empty and not its
only one. -/
theorem isAbsolute_iff {path : String} :
    isAbsolute path = true ↔ ∃ second rest, segments path = "" :: second :: rest := by
  constructor
  · intro h
    obtain ⟨rest, hrest⟩ := exists_of_isAbsolute h
    have hcut : segments path = segments "" ++ segments (String.ofList rest) := by
      apply segments_append_slash
      simp [hrest]
    obtain ⟨second, more, hmore⟩ := List.exists_cons_of_ne_nil
      (segments_ne_nil (String.ofList rest))
    exact ⟨second, more, by rw [hcut, hmore]; rfl⟩
  · rintro ⟨second, rest, hsegments⟩
    cases hcs : path.toList with
    | nil =>
      rw [String.toList_eq_nil_iff.1 hcs] at hsegments
      cases hsegments
    | cons c cs =>
      by_cases hslash : c = '/'
      · rw [isAbsolute, hcs, hslash]
        rfl
      · have hcut := Text.fields_cons_of_neg (p := fun c => c == '/')
          (beq_eq_false_iff_ne.2 hslash) cs
        obtain ⟨field, others, hfields⟩ :=
          List.exists_cons_of_ne_nil (Text.fields_ne_nil (fun c => c == '/') cs)
        rw [segments, hcs, hcut, hfields, Text.consField, List.map_cons,
          List.cons.injEq] at hsegments
        have hfirst := congrArg String.toList hsegments.1
        rw [String.toList_ofList] at hfirst
        cases hfirst

theorem isAbsolute_headAndBody (path : String) :
    isAbsolute path = ((headAndBody path).1 == "/") := by
  have hrelative : (∀ second rest, segments path ≠ "" :: second :: rest) →
      isAbsolute path = false := by
    intro h
    rw [Bool.eq_false_iff]
    intro habs
    obtain ⟨second, rest, hsegments⟩ := isAbsolute_iff.1 habs
    exact h second rest hsegments
  rw [headAndBody]
  split
  · rename_i second rest hsegments
    exact isAbsolute_iff.2 ⟨second, rest, hsegments⟩
  · rename_i rest hsegments
    apply hrelative
    intro second others hother
    rw [hsegments] at hother
    exact absurd (List.cons.inj hother).1 (by decide)
  · rename_i hroot hdot
    exact hrelative hroot

/-- The start decides whether a path that is put together is absolute. -/
theorem isAbsolute_ofHeadAndBody {head : String} {body : List String}
    (h : ∀ segment ∈ body, IsSegment segment) (hfits : FitsHead head body) :
    isAbsolute (ofHeadAndBody head body) = (head == "/") := by
  rw [ofHeadAndBody]
  cases hfits with
  | root => exact isAbsolute_append _ (by decide)
  | dotAlone => exact isAbsolute_append _ (by decide)
  | dot => exact isAbsolute_append _ (by decide)
  | bare _ hfirst =>
    rw [String.empty_append]
    refine Bool.eq_false_iff.2 ?_
    intro habs
    obtain ⟨second, rest, hsegments⟩ := isAbsolute_iff.1 habs
    by_cases hbody : body = []
    · subst hbody
      cases hsegments
    · rw [segments_intercalate h hbody] at hsegments
      exact hfirst second rest hsegments

/-- What `dropVoidEnd` drops, and where it stops. -/
theorem dropVoidEnd_spec (body : List String) :
    (∃ voids, body = dropVoidEnd body ++ voids ∧ ∀ segment ∈ voids, isVoid segment = true) ∧
      ∀ last, (dropVoidEnd body).getLast? = some last → isVoid last = false := by
  constructor
  · refine ⟨(body.reverse.takeWhile isVoid).reverse, ?_, ?_⟩
    · rw [dropVoidEnd, ← List.reverse_append, List.takeWhile_append_dropWhile, List.reverse_reverse]
    · intro segment hsegment
      exact List.all_eq_true.1 List.all_takeWhile segment (List.mem_reverse.1 hsegment)
  · intro last hlast
    rw [dropVoidEnd, List.getLast?_reverse] at hlast
    have hstop := List.head?_dropWhile_not isVoid body.reverse
    rw [hlast] at hstop
    exact hstop

theorem filter_dropVoidEnd (body : List String) :
    (dropVoidEnd body).filter (fun segment => !isVoid segment) =
      body.filter (fun segment => !isVoid segment) := by
  obtain ⟨⟨voids, hbody, hvoids⟩, -⟩ := dropVoidEnd_spec body
  have hnone : voids.filter (fun segment => !isVoid segment) = [] := by
    rw [List.filter_eq_nil_iff]
    intro segment hsegment
    simp [hvoids segment hsegment]
  conv => rhs; rw [hbody, List.filter_append, hnone, List.append_nil]

/-- The parent of a path starts where the path starts and is walked without
the last step. -/
theorem parent?_spec {path parent : String} (h : parent? path = some parent) :
    isAbsolute parent = isAbsolute path ∧ steps parent = (steps path).dropLast := by
  have habs := isAbsolute_headAndBody path
  obtain ⟨hfits, hsegments, hsteps⟩ := headAndBody_spec path
  cases hparts : headAndBody path with
  | mk head body =>
    rw [hparts] at hfits hsegments hsteps habs
    obtain ⟨⟨voids, hbody, -⟩, hstop⟩ := dropVoidEnd_spec body
    simp only [parent?, hparts] at h
    rw [hsteps, habs, ← filter_dropVoidEnd]
    split at h
    · rename_i hnil
      rw [hnil]
      split at h
      · rename_i hdot
        cases h
        refine ⟨?_, steps_empty⟩
        rw [beq_iff_eq.1 hdot]
        rfl
      · cases h
    · rename_i hwalked
      cases h
      rcases List.eq_nil_or_concat (dropVoidEnd body) with hnil | ⟨front, last, hconcat⟩
      · exact absurd hnil hwalked
      rw [List.concat_eq_append] at hconcat
      have hlast : isVoid last = false := hstop last (by rw [hconcat, List.getLast?_concat])
      obtain ⟨⟨rest, hfront, -⟩, -⟩ := dropVoidEnd_spec front
      have hbegins : dropVoidEnd front <+: body := by
        refine ⟨rest ++ [last] ++ voids, ?_⟩
        rw [← List.append_assoc, ← List.append_assoc, ← hfront, ← hconcat, ← hbody]
      have hinner : ∀ segment ∈ dropVoidEnd front, IsSegment segment :=
        fun segment hsegment => hsegments segment (hbegins.subset hsegment)
      rw [hconcat, List.dropLast_concat]
      refine ⟨isAbsolute_ofHeadAndBody hinner (hfits.isPrefix hbegins), ?_⟩
      rw [List.filter_append, steps_ofHeadAndBody hinner (hfits.isPrefix hbegins),
        filter_dropVoidEnd]
      simp [hlast]

/-- A path that goes somewhere has a parent. -/
theorem exists_parent? {path : String} (h : steps path ≠ []) :
    ∃ parent, parent? path = some parent := by
  obtain ⟨-, -, hsteps⟩ := headAndBody_spec path
  rw [parent?]
  cases hparts : headAndBody path with
  | mk head body =>
    rw [hparts] at hsteps
    simp only
    split
    · rename_i hnil
      rw [hsteps, ← filter_dropVoidEnd, hnil] at h
      exact absurd rfl h
    · exact ⟨_, rfl⟩

theorem steps_containingDir_subset {path step : String} (h : step ∈ steps (containingDir path)) :
    step ∈ steps path := by
  rw [containingDir] at h
  split at h
  · rename_i parent hparent
    split at h
    · cases h
    · rw [(parent?_spec hparent).2] at h
      exact List.dropLast_subset _ h
  · cases h

/-! ## Paths from the root -/

theorem isSegment_empty : IsSegment "" := fun h => nomatch h

/-- Joining steps one after the other. -/
theorem steps_foldl_join {names : List String} (h : ∀ name ∈ names, IsStep name) (start : String) :
    steps (names.foldl join start) = steps start ++ names := by
  induction names generalizing start with
  | nil => simp
  | cons name names ih =>
    have hname : IsStep name := h name (by simp)
    rw [List.foldl_cons, ih (fun n hn => h n (by simp [hn])), steps_join,
      not_isAbsolute_of_isSegment hname.1, steps_of_isStep hname]
    simp

/-- A path from the root walks to the current directory first. -/
theorem steps_absolute (current path : String) :
    steps (absolute current path) =
      (if isAbsolute path then [] else steps current) ++ steps path := by
  have hwalked (start : String) :=
    steps_foldl_join (fun name (h : name ∈ steps path) => isStep_of_mem_steps h) start
  have hstart : steps (if isAbsolute path then if startsWithTwoSlashes path then "//" else "/"
      else current) = if isAbsolute path then [] else steps current := by
    split
    · split <;> decide
    · rfl
  simp only [absolute]
  split
  · rw [steps_join, not_isAbsolute_of_isSegment isSegment_empty, hwalked, hstart, steps_empty]
    simp
  · rw [hwalked, hstart]

/-- The segments of the names of a place with a slash in front of each. -/
theorem segments_slashed {place : Files.Place} (h : ∀ name ∈ place, IsStep name) :
    segments (String.join (place.map fun name => "/" ++ name)) = "" :: place := by
  induction place with
  | nil => rfl
  | cons name rest ih =>
    have hname : IsStep name := h name (by simp)
    have hrest := ih fun n hn => h n (by simp [hn])
    have hfirst : segments (name ++ String.join (rest.map fun name => "/" ++ name)) =
        name :: rest := by
      cases rest with
      | nil =>
        have hend : String.join (([] : List String).map fun name => "/" ++ name) = "" := rfl
        rw [hend, String.append_empty, segments_of_isSegment hname.1]
      | cons next rest =>
        have hslash : segments (String.join ((next :: rest).map fun name => "/" ++ name)) =
            segments "" ++ segments (next ++ String.join (rest.map fun name => "/" ++ name)) :=
          segments_append_slash (by simp)
        have hcut : segments (name ++ String.join ((next :: rest).map fun name => "/" ++ name)) =
            segments name ++ segments (next ++ String.join (rest.map fun name => "/" ++ name)) :=
          segments_append_slash (by simp)
        rw [segments_of_isSegment isSegment_empty, hrest] at hslash
        have hnext : segments (next ++ String.join (rest.map fun name => "/" ++ name)) =
            next :: rest := (List.cons.inj hslash).2.symm
        rw [hcut, segments_of_isSegment hname.1, hnext]
        rfl
    have hslash : segments (String.join ((name :: rest).map fun name => "/" ++ name)) =
        segments "" ++ segments (name ++ String.join (rest.map fun name => "/" ++ name)) :=
      segments_append_slash (by simp)
    rw [hslash, hfirst]
    rfl

/-- The path of a place walks to the place. -/
theorem steps_pathOf {place : Files.Place} (h : ∀ name ∈ place, IsStep name) :
    steps (Files.Memory.pathOf place) = place := by
  rw [Files.Memory.pathOf]
  split
  · rename_i hempty
    rw [List.isEmpty_iff.1 hempty]
    decide
  · rw [steps, segments_slashed h]
    have hkeep : place.filter (fun name => !isVoid name) = place := by
      rw [List.filter_eq_self]
      intro name hname
      simp [(h name hname).2]
    rw [List.filter_cons_of_neg (by decide), hkeep]

/-! ## Without `..` -/

/-- Whether a path can be walked without going up. -/
def IsDirect (path : String) : Prop :=
  ".." ∉ steps path

theorem IsDirect.containingDir {path : String} (h : IsDirect path) :
    IsDirect (containingDir path) :=
  fun hup => h (steps_containingDir_subset hup)

theorem IsDirect.absolute {current path : String} (h : IsDirect path)
    (hcurrent : isAbsolute path = false → IsDirect current) : IsDirect (absolute current path) := by
  intro hup
  rw [steps_absolute] at hup
  cases habs : isAbsolute path with
  | true =>
    rw [habs, if_pos rfl, List.nil_append] at hup
    exact h hup
  | false =>
    rw [habs, if_neg (by simp)] at hup
    rcases List.mem_append.1 hup with hup | hup
    · exact hcurrent habs hup
    · exact h hup

theorem isDirect_pathOf {place : Files.Place} (h : ∀ name ∈ place, IsName name) :
    IsDirect (Files.Memory.pathOf place) := by
  intro hup
  rw [steps_pathOf fun name hname => (h name hname).1] at hup
  exact (h ".." hup).2 rfl

/-- A name in a directory. -/
theorem IsDirect.join {directory name : String} (h : IsDirect directory)
    (hsegment : IsSegment name) (hup : name ≠ "..") : IsDirect (join directory name) := by
  intro hmem
  rw [steps_join, not_isAbsolute_of_isSegment hsegment, if_neg (by simp)] at hmem
  rcases List.mem_append.1 hmem with hmem | hmem
  · exact h hmem
  · have hone := (List.mem_filter.1 hmem).1
    rw [segments_of_isSegment hsegment, List.mem_singleton] at hone
    exact hup hone.symm

/-! ## Replacing the last name -/

theorem isStep_of_lastName? {path name : String} (h : lastName? path = some name) :
    IsStep name := by
  rw [lastName?] at h
  split at h
  · rename_i last hlast
    split at h
    · cases h
    · cases h
      exact isStep_of_mem_steps (List.mem_of_getLast? hlast)
  · cases h

/-- A name that is joined to a path is its last name. -/
theorem lastName?_join (base : String) {name : String} (h : IsName name) :
    lastName? (join base name) = some name := by
  rw [lastName?, steps_join, steps_of_isStep h.1, List.getLast?_concat]
  exact if_neg (by simpa using h.2)

/-- A path whose last name is replaced ends with the new one. -/
theorem getLast?_segments_withLastName (path : String) {name : String} (h : IsSegment name) :
    (segments (withLastName path name)).getLast? = some name := by
  rw [withLastName]
  split
  · exact getLast?_segments_join _ h
  · exact getLast?_segments_join _ h

theorem IsDirect.withLastName {path name : String} (h : IsDirect path) (hsegment : IsSegment name)
    (hup : name ≠ "..") : IsDirect (withLastName path name) := by
  rw [Path.withLastName]
  split
  · rename_i parent hlast hparent
    have hdirect : IsDirect parent := by
      rw [IsDirect, (parent?_spec hparent).2]
      exact fun hmem => h (List.dropLast_subset _ hmem)
    exact hdirect.join hsegment hup
  · exact h.join hsegment hup

end TestSkeleton.Path
