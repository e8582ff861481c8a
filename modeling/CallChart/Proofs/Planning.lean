import CallChart.Batch
import CallChart.Proofs.Paths
import Mathlib.Data.List.Nodup

/-!
# The files of a batch

The diagram of one input of several is found at the output directory and the stem of the input
(`components_diagramPath`), so a batch is planned exactly if the stems are distinct
(`planOnto_eq_ok_iff`). A job may write its diagram and the metadata document beside it. The
document is found at the same stem with an ending of its own (`components_metadataPath`), so no
two files of a batch that is planned are the same (`planJobs_nodup_files`).
-/

namespace CallChart

/-! ## Stems -/

theorem diagramStem_ne_empty (input : Path) : diagramStem input ≠ "" := by
  unfold diagramStem Path.stem?
  cases h : input.fileName? with
  | none => decide
  | some name => exact (splitExtension_fst (Path.isPlain_of_fileName? h).ne_empty).1

theorem slash_notMem_diagramStem (input : Path) : '/' ∉ (diagramStem input).toList := by
  unfold diagramStem Path.stem?
  cases h : input.fileName? with
  | none => decide
  | some name =>
    have hplain := Path.isPlain_of_fileName? h
    exact fun hmem => hplain.slash_notMem ((splitExtension_fst hplain.ne_empty).2 '/' hmem)

/-! ## The files of a job -/

/-- The last step to the diagram of a stem. -/
def diagramStep (stem : String) : Component :=
  .name (stem ++ ".md")

/-- The last step to the metadata document of a stem. -/
def metadataStep (stem : String) : Component :=
  if stem = "." then .up else .name (stem ++ ".metadata.json")

theorem diagramStep_injective : Function.Injective diagramStep := fun s t h => by
  have htext := congrArg String.toList (Component.name.inj h)
  rw [String.toList_append, String.toList_append] at htext
  exact String.toList_inj.1 (List.append_cancel_right htext)

theorem metadataStep_injective : Function.Injective metadataStep := fun s t h => by
  unfold metadataStep at h
  split_ifs at h with hs ht ht
  · exact hs.trans ht.symm
  · have htext := congrArg String.toList (Component.name.inj h)
    rw [String.toList_append, String.toList_append] at htext
    exact String.toList_inj.1 (List.append_cancel_right htext)

theorem diagramStep_ne_metadataStep (s t : String) : diagramStep s ≠ metadataStep t := by
  unfold diagramStep metadataStep
  split_ifs
  · exact Component.noConfusion
  · intro h
    have hlast := congrArg (fun name => name.toList.getLast?) (Component.name.inj h)
    simp [List.getLast?_append] at hlast

/-- The file name of a diagram is a plain name. -/
theorem isPlain_diagramName (input : Path) : IsPlain (diagramStem input ++ ".md") := by
  have hplain := IsPlain.extended "md" (diagramStem_ne_empty input)
    (slash_notMem_diagramStem input) (by decide) (.inl (by decide))
  rwa [String.append_assoc] at hplain

theorem components_diagramPath (output input : Path) :
    (diagramPath output input).components =
      output.components ++ [diagramStep (diagramStem input)] :=
  Path.components_join output (isPlain_diagramName input)

/-- A diagram is found at the output and its stem. -/
theorem diagramPath_eq (output input : Path) :
    diagramPath output input = ⟨output.lead ++ (diagramStem input ++ "." ++ "md")⟩ := by
  have hslash := (isPlain_diagramName input).slash_notMem
  rw [diagramPath, Path.join_eq (Path.isAbsolute_of_notMem hslash), String.append_assoc]
  rfl

/-- The metadata document is found beside the diagram. -/
theorem components_metadataPath (output input : Path) :
    (Frame.metadataPath (diagramPath output input)).components =
      output.components ++ [metadataStep (diagramStem input)] := by
  have hne := diagramStem_ne_empty input
  have hslash := slash_notMem_diagramStem input
  rw [Frame.metadataPath, diagramPath_eq, Path.withExtension_append output.isLead_lead hne hslash
    (by decide) (by decide) (by decide), metadataStep]
  split_ifs with hdot
  · rw [Path.components_append_up output.isLead_lead, Path.components_lead]
  · have hplain := IsPlain.extended "metadata.json" hne hslash (by decide)
      (.inl (by decide))
    rw [Path.components_append_plain output.isLead_lead hplain, Path.components_lead,
      String.append_assoc]
    rfl

namespace Job

/-- The files that a job may write. -/
def files (job : Job) : List Path :=
  [job.output, Frame.metadataPath job.output]

/-- The job of one input of several. -/
def ofInput (output input : Path) : Job :=
  ⟨input, diagramPath output input⟩

/-- Where the diagram of a job is found. -/
def target (job : Job) : List Component :=
  job.output.components

theorem target_ofInput (output input : Path) :
    (ofInput output input).target = output.components ++ [diagramStep (diagramStem input)] := by
  rw [target, ofInput, components_diagramPath]

theorem components_files_ofInput (output input : Path) :
    (ofInput output input).files.map Path.components =
      [output.components ++ [diagramStep (diagramStem input)],
        output.components ++ [metadataStep (diagramStem input)]] := by
  rw [files, ofInput, List.map_cons, List.map_singleton, components_diagramPath,
    components_metadataPath]

end Job

/-! ## Planning -/

/-- Planning goes through as long as no diagram would be found where another one is. -/
theorem planOnto_eq_ok_iff (output : Path) {jobs : List Job} :
    ∀ (inputs : List Path) (planned : List Job),
      (planned.map Job.target).Nodup →
      (planOnto output planned inputs = .ok jobs ↔
        jobs = planned ++ inputs.map (Job.ofInput output) ∧
          ((planned ++ inputs.map (Job.ofInput output)).map Job.target).Nodup)
  | [], planned, hplanned => by
    rw [planOnto, List.map_nil, List.append_nil, Except.ok.injEq]
    exact ⟨fun h => ⟨h.symm, hplanned⟩, fun h => h.1.symm⟩
  | input :: inputs, planned, hplanned => by
    rw [planOnto]
    cases hfind : planned.find? fun job =>
        job.output.components = (diagramPath output input).components with
    | some job =>
      have hmem := List.mem_of_find?_eq_some hfind
      have hsame : job.target = (Job.ofInput output input).target := by
        simpa [Job.target, Job.ofInput] using List.find?_some hfind
      refine ⟨fun h => absurd h (by simp), fun h => ?_⟩
      rw [List.map_append, List.nodup_append] at h
      exact absurd hsame (h.2.2.2 _ (List.mem_map_of_mem hmem) _ (List.mem_cons_self ..))
    | none =>
      have hnew : ((planned ++ [Job.ofInput output input]).map Job.target).Nodup := by
        rw [List.map_append, List.map_singleton, List.nodup_append]
        refine ⟨hplanned, List.nodup_singleton _, fun a ha b hb => ?_⟩
        obtain ⟨job, hjob, rfl⟩ := List.mem_map.1 ha
        rw [List.mem_singleton.1 hb]
        simpa [Job.target, Job.ofInput] using List.find?_eq_none.1 hfind job hjob
      have hcons : planned ++ (input :: inputs).map (Job.ofInput output) =
          planned ++ [Job.ofInput output input] ++ inputs.map (Job.ofInput output) := by simp
      rw [hcons]
      exact planOnto_eq_ok_iff output inputs _ hnew

theorem planJobs_eq_ok_iff {inputs : List Path} (h : 2 ≤ inputs.length) (output : Path)
    {jobs : List Job} : planJobs inputs output = .ok jobs ↔
      jobs = inputs.map (Job.ofInput output) ∧ (inputs.map diagramStem).Nodup := by
  have hplan : planJobs inputs output = planOnto output [] inputs := by
    unfold planJobs
    split
    · simp at h
    · rfl
  have hsteps : (inputs.map (Job.ofInput output)).map Job.target =
      (inputs.map diagramStem).map fun stem => output.components ++ [diagramStep stem] := by
    simp only [List.map_map, Function.comp_def, Job.target_ofInput]
  have hinjective : Function.Injective fun stem => output.components ++ [diagramStep stem] :=
    fun s t h => diagramStep_injective (List.singleton_inj.1 (List.append_cancel_left h))
  rw [hplan, planOnto_eq_ok_iff output inputs [] List.nodup_nil, List.nil_append, hsteps,
    List.nodup_map_iff hinjective]

/-- The files of jobs with distinct stems are all different. -/
theorem nodup_files (output : Path) {inputs : List Path} (h : (inputs.map diagramStem).Nodup) :
    (((inputs.map (Job.ofInput output)).flatMap Job.files).map Path.components).Nodup := by
  rw [List.map_flatMap, List.flatMap_map, List.nodup_flatMap]
  refine ⟨fun input _ => ?_, ?_⟩
  · simp [Job.components_files_ofInput, diagramStep_ne_metadataStep]
  · refine (List.pairwise_map.1 h).imp fun {input input'} hne => ?_
    have hsteps := fun s t => (diagramStep_ne_metadataStep s t).symm
    simp [Function.onFun, Job.components_files_ofInput, diagramStep_injective.eq_iff,
      metadataStep_injective.eq_iff, diagramStep_ne_metadataStep, hsteps, Ne.symm hne]

/-- Several inputs are planned exactly if their stems are distinct. Then there is a job for each
input, in order, and no two files that the jobs may write are the same. -/
theorem planJobs_nodup_files {inputs : List Path} (h : 2 ≤ inputs.length) (output : Path) :
    ((∃ jobs, planJobs inputs output = .ok jobs) ↔ (inputs.map diagramStem).Nodup) ∧
      ∀ jobs, planJobs inputs output = .ok jobs →
        jobs.map Job.input = inputs ∧ jobs.map Job.output = inputs.map (diagramPath output) ∧
          ((jobs.flatMap Job.files).map Path.components).Nodup := by
  refine ⟨⟨?_, fun hstems => ⟨_, (planJobs_eq_ok_iff h output).2 ⟨rfl, hstems⟩⟩⟩, ?_⟩
  · rintro ⟨jobs, hjobs⟩
    exact ((planJobs_eq_ok_iff h output).1 hjobs).2
  · intro jobs hjobs
    obtain ⟨rfl, hstems⟩ := (planJobs_eq_ok_iff h output).1 hjobs
    refine ⟨?_, ?_, nodup_files output hstems⟩
    · simp only [List.map_map, Function.comp_def, Job.ofInput, List.map_id']
    · simp only [List.map_map, Function.comp_def, Job.ofInput]

/-- Inputs whose stems hold dots, or that have no file name. -/
def dottedInputs : List Path :=
  [⟨"a/..x"⟩, ⟨"x.json"⟩, ⟨"x.metadata.json"⟩, ⟨"b/.json"⟩, ⟨".."⟩]

/-- Dots in stems do not bring two files together. -/
theorem planJobs_nodup_files_dottedInputs :
    2 ≤ dottedInputs.length ∧ (dottedInputs.map diagramStem).Nodup ∧
      ∃ jobs, planJobs dottedInputs ⟨"out/"⟩ = .ok jobs ∧ jobs.map Job.input = dottedInputs ∧
        ((jobs.flatMap Job.files).map Path.components).Nodup := by
  have hlength : 2 ≤ dottedInputs.length := by decide
  have hstems : (dottedInputs.map diagramStem).Nodup := by decide +kernel
  obtain ⟨hplan, hfiles⟩ := planJobs_nodup_files hlength ⟨"out/"⟩
  obtain ⟨jobs, hjobs⟩ := hplan.2 hstems
  obtain ⟨hinputs, -, hnodup⟩ := hfiles jobs hjobs
  exact ⟨hlength, hstems, jobs, hjobs, hinputs, hnodup⟩

end CallChart
