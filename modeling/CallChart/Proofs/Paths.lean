import CallChart.Path
import CallChart.Proofs.Lines

/-!
# Reading paths

What the steps of a path are, segment by segment (`Path.components_of_segments`), and what comes
of them when a name is put behind a directory, whatever way the directory is spelled :
`Path.join` adds one step (`Path.components_join`), and `Path.withExtension` changes only that
step (`Path.withExtension_append`).
-/

namespace CallChart

/-! ## Names -/

/-- A segment that is a plain name. -/
structure IsPlain (name : String) : Prop where
  ne_empty : name ≠ ""
  ne_here : name ≠ "."
  ne_up : name ≠ ".."
  slash_notMem : '/' ∉ name.toList

theorem IsPlain.innerComponent? {name : String} (h : IsPlain name) :
    Path.innerComponent? name = some (.name name) := by
  simp [Path.innerComponent?, h.ne_empty, h.ne_here, h.ne_up]

/-- A stem with an extension is a plain name, unless two dots are left of it. -/
theorem IsPlain.extended {stem : String} (ext : String) (hstem : stem ≠ "")
    (hslash : '/' ∉ stem.toList) (hext : '/' ∉ ext.toList) (h : ext ≠ "" ∨ stem ≠ ".") :
    IsPlain (stem ++ "." ++ ext) := by
  have hlength : 1 ≤ stem.length := Nat.one_le_iff_ne_zero.2 (mt String.length_eq_zero_iff.1 hstem)
  have hextended : (stem ++ "." ++ ext).length = stem.length + 1 + ext.length := by
    rw [String.length_append, String.length_append]
    rfl
  have hne : ∀ s : String, s.length < 2 → stem ++ "." ++ ext ≠ s := by
    rintro _ hlt rfl
    omega
  refine ⟨hne "" (by decide), hne "." (by decide), fun hup => ?_, by simp [hslash, hext]⟩
  have htwo : stem.length + 1 + ext.length = 2 := by rw [← hextended, hup]; rfl
  have hempty : ext = "" := String.length_eq_zero_iff.1 (by omega)
  subst hempty
  refine h.elim (fun h => h rfl) fun h => h ?_
  rw [String.append_empty, ← String.toList_inj, String.toList_append] at hup
  rw [← String.toList_inj]
  exact (List.append_left_inj ['.']).1 hup

/-- Behind a text, an extension without dots is found again. -/
theorem splitExtension_append {stem ext : String} (hstem : stem ≠ "") (hext : '.' ∉ ext.toList) :
    splitExtension (stem ++ "." ++ ext) = (stem, some ext) := by
  have hplain : ∀ c ∈ ext.toList.reverse, (c != '.') = true := fun c hc => by
    rw [List.mem_reverse] at hc
    exact bne_iff_ne.2 fun h => hext (h ▸ hc)
  have htake : (ext.toList.reverse ++ '.' :: stem.toList.reverse).takeWhile (· != '.') =
      ext.toList.reverse := by
    rw [List.takeWhile_append_of_pos hplain]
    simp
  have hdrop : (ext.toList.reverse ++ '.' :: stem.toList.reverse).dropWhile (· != '.') =
      '.' :: stem.toList.reverse := by
    rw [List.dropWhile_append_of_pos hplain]
    simp
  simp [splitExtension, htake, hdrop, hstem]

/-- A stem is not empty and holds no other characters than the name. -/
theorem splitExtension_fst {name : String} (hname : name ≠ "") :
    (splitExtension name).1 ≠ "" ∧ ∀ c ∈ (splitExtension name).1.toList, c ∈ name.toList := by
  simp only [splitExtension]
  split
  next => exact ⟨hname, fun _ hc => hc⟩
  next h =>
    rw [String.toList_ofList]
    refine ⟨fun hempty => h ?_, fun c hc => ?_⟩
    · rw [← String.toList_inj, String.toList_ofList] at hempty
      rw [hempty]
      rfl
    · have hmem := List.mem_of_mem_drop (List.mem_reverse.1 hc)
      exact List.mem_reverse.1 ((List.dropWhile_sublist _).mem hmem)

namespace Path

/-! ## Segments and steps -/

theorem segments_ne_nil (p : Path) : p.segments ≠ [] := by
  simp [segments, List.splitOn_ne_nil]

theorem slash_notMem_of_mem_segments {p : Path} {segment : String} (h : segment ∈ p.segments) :
    '/' ∉ segment.toList := by
  obtain ⟨piece, hpiece, rfl⟩ := List.mem_map.1 h
  rw [String.toList_ofList]
  intro hmem
  exact absurd (Text.notMem_of_mem_splitOnP p.text.toList piece hpiece '/' hmem) (by decide)

/-- The segments with slashes between are the text. -/
theorem intercalate_segments (p : Path) : "/".intercalate p.segments = p.text := by
  have hid : (String.toList ∘ String.ofList) = id := funext fun cs => String.toList_ofList
  rw [← String.toList_inj, String.toList_intercalate, segments, List.map_map, hid, List.map_id]
  exact List.intercalate_splitOn '/'

/-- What the first segment of a path says. -/
def firstStep? (isAbsolute : Bool) (first : String) : Option Component :=
  if first = "" then if isAbsolute then some .root else none
  else if first = "." then some .here
  else innerComponent? first

/-- The steps of a path, segment by segment. -/
theorem components_of_segments {p : Path} {first : String} {rest : List String}
    (h : p.segments = first :: rest) :
    p.components = (firstStep? p.isAbsolute first).toList ++ rest.filterMap innerComponent? := by
  rw [components, h]
  unfold firstStep?
  split_ifs <;> simp_all

theorem isPlain_of_innerComponent? {segment name : String} (hslash : '/' ∉ segment.toList)
    (h : innerComponent? segment = some (.name name)) : IsPlain name := by
  unfold innerComponent? at h
  split_ifs at h with hempty hup
  · exact absurd h (by simp)
  · obtain rfl : segment = name := by simpa using h
    rw [not_or] at hempty
    exact ⟨hempty.1, hempty.2, hup, hslash⟩

/-- Names that are steps of a path are plain. -/
theorem isPlain_of_mem_components {p : Path} {name : String} (h : .name name ∈ p.components) :
    IsPlain name := by
  obtain ⟨first, rest, hsegments⟩ := List.exists_cons_of_ne_nil p.segments_ne_nil
  have hslash : ∀ segment ∈ first :: rest, '/' ∉ segment.toList := fun _ hmem =>
    slash_notMem_of_mem_segments (hsegments ▸ hmem)
  rw [components_of_segments hsegments, List.mem_append, List.mem_filterMap] at h
  rcases h with h | ⟨segment, hmem, h⟩
  · unfold firstStep? at h
    split_ifs at h
    · simp at h
    · simp at h
    · simp at h
    · exact isPlain_of_innerComponent? (hslash first List.mem_cons_self) (by simpa using h)
  · exact isPlain_of_innerComponent? (hslash segment (List.mem_cons_of_mem _ hmem)) h

theorem isPlain_of_fileName? {p : Path} {name : String} (h : p.fileName? = some name) :
    IsPlain name := by
  obtain ⟨c, hc, hname⟩ := Option.bind_eq_some_iff.1 h
  cases c with
  | root => cases hname
  | here => cases hname
  | up => cases hname
  | name s =>
    obtain rfl : s = name := Option.some.inj hname
    exact isPlain_of_mem_components (List.mem_of_getLast? hc)

/-! ## Names behind a directory -/

/-- Something that a name may be put behind : nothing, or a text that a slash ends. -/
def IsLead (lead : String) : Prop :=
  lead = "" ∨ ∃ front, lead = front ++ "/"

/-- The text that `join` puts in front. -/
def lead (base : Path) : String :=
  if base.text.toList.getLast?.all (· == '/') then base.text else base.text ++ "/"

theorem isLead_lead (base : Path) : IsLead base.lead := by
  unfold lead
  split
  next h =>
    cases hlast : base.text.toList.getLast? with
    | none => exact .inl (by simpa using hlast)
    | some c =>
      obtain rfl : c = '/' := by simpa [hlast] using h
      obtain ⟨front, hfront⟩ := List.getLast?_eq_some_iff.1 hlast
      exact .inr ⟨String.ofList front, by rw [← String.toList_inj, hfront]; simp⟩
  next => exact .inr ⟨base.text, rfl⟩

theorem join_eq {base p : Path} (h : p.isAbsolute = false) :
    base.join p = ⟨base.lead ++ p.text⟩ := by
  rw [join, h, lead]
  split_ifs <;> simp_all

theorem segments_of_notMem {name : String} (h : '/' ∉ name.toList) : segments ⟨name⟩ = [name] := by
  simp [segments, List.splitOn_eq_singleton h]

/-- A slash ends a segment. -/
theorem segments_slash (front name : String) :
    segments ⟨front ++ "/" ++ name⟩ = segments ⟨front⟩ ++ segments ⟨name⟩ := by
  have hslash : (front ++ "/" ++ name).toList = front.toList ++ '/' :: name.toList := by simp
  rw [segments, hslash, List.splitOn_append_cons_self, List.map_append]
  rfl

theorem segments_ended (front : String) : segments ⟨front ++ "/"⟩ = segments ⟨front⟩ ++ [""] := by
  have hslash := segments_slash front ""
  rwa [String.append_empty] at hslash

/-- A text without slashes behind a lead is the last segment. -/
theorem segments_append {front : String} (hfront : IsLead front) {name : String}
    (hname : '/' ∉ name.toList) :
    segments ⟨front ++ name⟩ = (segments ⟨front⟩).dropLast ++ [name] := by
  have hempty : segments ⟨""⟩ = [""] := rfl
  rcases hfront with rfl | ⟨front, rfl⟩
  · rw [String.empty_append, segments_of_notMem hname, hempty]
    rfl
  · rw [segments_slash, segments_of_notMem hname, segments_ended, List.dropLast_concat]

theorem isAbsolute_append {front : String} (hfront : front ≠ "") (name : String) :
    isAbsolute ⟨front ++ name⟩ = isAbsolute ⟨front⟩ := by
  obtain ⟨c, cs, hcs⟩ := List.exists_cons_of_ne_nil (mt String.toList_eq_nil_iff.1 hfront)
  simp [isAbsolute, hcs]

theorem isAbsolute_of_notMem {name : String} (h : '/' ∉ name.toList) :
    isAbsolute ⟨name⟩ = false := by
  rw [isAbsolute, beq_eq_false_iff_ne]
  exact fun hhead => h (List.mem_of_head? hhead)

/-- What stands behind a slash adds the steps that its segments say. -/
theorem components_slash (front name : String) :
    components ⟨front ++ "/" ++ name⟩ =
      components ⟨front ++ "/"⟩ ++ (segments ⟨name⟩).filterMap innerComponent? := by
  obtain ⟨first, rest, hrest⟩ := List.exists_cons_of_ne_nil (segments_ne_nil ⟨front⟩)
  have hended : segments ⟨front ++ "/"⟩ = first :: (rest ++ [""]) := by
    rw [segments_ended, hrest, List.cons_append]
  have hsegments : segments ⟨front ++ "/" ++ name⟩ = first :: (rest ++ segments ⟨name⟩) := by
    rw [segments_slash, hrest, List.cons_append]
  have hne : front ++ "/" ≠ "" := fun h => absurd (congrArg String.length h) (by simp)
  have hnone : innerComponent? "" = none := rfl
  rw [components_of_segments hsegments, components_of_segments hended, isAbsolute_append hne]
  simp [hnone]

/-- A slash at the end adds no step. -/
theorem components_ended {front : String} (hfront : front ≠ "") :
    components ⟨front ++ "/"⟩ = components ⟨front⟩ := by
  obtain ⟨first, rest, hrest⟩ := List.exists_cons_of_ne_nil (segments_ne_nil ⟨front⟩)
  have hended : segments ⟨front ++ "/"⟩ = first :: (rest ++ [""]) := by
    rw [segments_ended, hrest, List.cons_append]
  have hnone : innerComponent? "" = none := rfl
  rw [components_of_segments hended, components_of_segments hrest, isAbsolute_append hfront]
  simp [hnone]

theorem components_of_isPlain {name : String} (h : IsPlain name) :
    components ⟨name⟩ = [.name name] := by
  rw [components_of_segments (segments_of_notMem h.slash_notMem), firstStep?, if_neg h.ne_empty,
    if_neg h.ne_here, h.innerComponent?]
  rfl

/-- A lead does not change what is put behind it. -/
theorem components_lead_append {front name : String} {c : Component} (hfront : IsLead front)
    (hslash : '/' ∉ name.toList) (hinner : innerComponent? name = some c)
    (hsingle : components ⟨name⟩ = [c]) :
    components ⟨front ++ name⟩ = components ⟨front⟩ ++ [c] := by
  rcases hfront with rfl | ⟨front, rfl⟩
  · rw [String.empty_append, hsingle]
    rfl
  · rw [components_slash, segments_of_notMem hslash]
    simp [hinner]

theorem components_append_plain {front name : String} (hfront : IsLead front)
    (h : IsPlain name) : components ⟨front ++ name⟩ = components ⟨front⟩ ++ [.name name] :=
  components_lead_append hfront h.slash_notMem h.innerComponent? (components_of_isPlain h)

theorem components_append_up {front : String} (hfront : IsLead front) :
    components ⟨front ++ ".."⟩ = components ⟨front⟩ ++ [.up] :=
  components_lead_append hfront (by decide) rfl rfl

theorem components_lead (base : Path) : components ⟨base.lead⟩ = base.components := by
  unfold lead
  split
  next => rfl
  next h => exact components_ended fun hempty => h (by simp [hempty])

/-- A name behind a directory is one step more. -/
theorem components_join (base : Path) {name : String} (h : IsPlain name) :
    (base.join ⟨name⟩).components = base.components ++ [.name name] := by
  rw [join_eq (isAbsolute_of_notMem h.slash_notMem), components_append_plain base.isLead_lead h,
    components_lead]

theorem fileName?_append_plain {front name : String} (hfront : IsLead front) (h : IsPlain name) :
    fileName? ⟨front ++ name⟩ = some name := by
  rw [fileName?, components_append_plain hfront h, List.getLast?_concat]
  rfl

/-! ## Another extension -/

/-- The text less its extension. -/
theorem dropExtension_append {front stem ext : String} (hfront : IsLead front) (hstem : stem ≠ "")
    (hslash : '/' ∉ stem.toList) (hext : ext ≠ "") (hextslash : '/' ∉ ext.toList)
    (hextdot : '.' ∉ ext.toList) :
    dropExtension ⟨front ++ (stem ++ "." ++ ext)⟩ = ⟨front ++ (stem ++ ".")⟩ := by
  have hplain := IsPlain.extended ext hstem hslash hextslash (.inl hext)
  have htext : front ++ (stem ++ "." ++ ext) = front ++ (stem ++ ".") ++ ext := by
    simp only [String.append_assoc]
  have hlength : (front ++ (stem ++ ".") ++ ext).length - ext.length =
      (front ++ (stem ++ ".")).toList.length := by
    rw [String.length_append, Nat.add_sub_cancel, String.length_toList]
  rw [dropExtension, fileName?_append_plain hfront hplain]
  simp only [Option.bind_some, splitExtension_append hstem hextdot]
  rw [htext, hlength, String.toList_append (s := front ++ (stem ++ ".")), List.take_left,
    String.ofList_toList]

/-- What is left of a name when its extension is dropped ends in a dot, and the text up to the
stem is the text without the dot. -/
theorem textToStem?_append {front stem : String} (hfront : IsLead front) (hstem : stem ≠ "")
    (hslash : '/' ∉ stem.toList) (hdot : stem ≠ ".") :
    textToStem? ⟨front ++ (stem ++ ".")⟩ = some (front ++ stem) := by
  have hempty : stem ++ "." = stem ++ "." ++ "" := String.append_empty.symm
  have hplain : IsPlain (stem ++ ".") :=
    hempty ▸ IsPlain.extended "" hstem hslash (by decide) (.inr hdot)
  have hstem? : stem? ⟨front ++ (stem ++ ".")⟩ = some stem := by
    rw [stem?, fileName?_append_plain hfront hplain, Option.map_some, hempty,
      splitExtension_append hstem (by decide)]
  have hnameSegments : nameSegments ⟨front ++ (stem ++ ".")⟩ =
      (segments ⟨front⟩).dropLast ++ [stem ++ "."] := by
    rw [nameSegments, segments_append hfront hplain.slash_notMem, List.reverse_concat,
      List.dropWhile_cons_of_neg (by simp [hplain.ne_empty, hplain.ne_here])]
    simp
  rw [textToStem?, hstem?, Option.map_some, hnameSegments, List.dropLast_concat,
    ← segments_append hfront hslash, intercalate_segments]

theorem withExtension_of_none {p : Path} (h : p.dropExtension.textToStem? = none) (ext : String) :
    p.withExtension ext = p.dropExtension := by
  unfold withExtension
  rw [h]

theorem withExtension_of_some {p : Path} {front : String}
    (h : p.dropExtension.textToStem? = some front) (ext : String) :
    p.withExtension ext = ⟨front ++ "." ++ ext⟩ := by
  unfold withExtension
  rw [h]

/-- Another extension changes the name only. Of a stem that is a dot two dots are left. -/
theorem withExtension_append {front stem ext : String} (hfront : IsLead front) (hstem : stem ≠ "")
    (hslash : '/' ∉ stem.toList) (hext : ext ≠ "") (hextslash : '/' ∉ ext.toList)
    (hextdot : '.' ∉ ext.toList) (new : String) :
    withExtension ⟨front ++ (stem ++ "." ++ ext)⟩ new =
      if stem = "." then ⟨front ++ ".."⟩ else ⟨front ++ (stem ++ "." ++ new)⟩ := by
  have hdrop := dropExtension_append hfront hstem hslash hext hextslash hextdot
  by_cases hdot : stem = "."
  · have hdots : "." ++ "." = ".." := rfl
    have hnone : textToStem? ⟨front ++ ".."⟩ = none := by
      rw [textToStem?, stem?, fileName?, components_append_up hfront, List.getLast?_concat]
      rfl
    rw [if_pos hdot, withExtension_of_none] <;> rw [hdrop, hdot, hdots]
    exact hnone
  · have hsome := textToStem?_append hfront hstem hslash hdot
    rw [← hdrop] at hsome
    rw [if_neg hdot, withExtension_of_some hsome]
    simp only [String.append_assoc]

end Path

end CallChart
