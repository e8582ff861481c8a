import CallChart.Proofs.FileMaps
import CallChart.Proofs.Documents
import CallChart.Proofs.Export
import CallChart.Proofs.Faithful

/-!
# The order of a batch

When can the jobs of a batch be run in any order ? They can if they are `Apart`, that is if no job
writes what another one reads (`orderFree_of_apart`) : then each job finds at its input what was
there at first, wherever it stands in the order (`run_runEach`), and the texts that different jobs
put come to different places.

Jobs that are planned have inputs of distinct stems, so a diagram never comes to where another job
reads (`output_ne_input`). A metadata document can come there. The job that reads there then finds
a document with nothing in it (`parse_exportText`) and fails, although it comes out well if it is
run first (`run_crossed`). So the jobs can be run in any order exactly if no metadata document is
in the way (`planJobs_orderFree_iff`), which planning does not make sure of
(`planJobs_crossedJobs`).
-/

namespace CallChart

/-- What jobs come to on a file map does not depend on the order in which they are run : each has
the same result, and the same texts are left. -/
def OrderFree (jobs : List Job) : Prop :=
  ∀ (refusal : Path → Option String) (s : Settings) (files : FileMap) (order : List Job),
    order.Perm jobs →
      let after := (runJobs (FileMap.disk refusal) s order).run files
      let after' := (runJobs (FileMap.disk refusal) s jobs).run files
      after.1.1.Perm after'.1.1 ∧ after.2 = after'.2

/-- No job writes a file that another one reads. -/
def Apart (jobs : List Job) : Prop :=
  ∀ job ∈ jobs, ∀ other ∈ jobs, job ≠ other →
    ∀ p ∈ job.files, p.components ≠ other.input.components

/-! ## Jobs that keep apart -/

theorem runJobs_eq {m : Type → Type} [Monad m] {jobs : List Job} (h : 2 ≤ jobs.length)
    (disk : Disk m) (s : Settings) : runJobs disk s jobs = runEach disk s jobs := by
  unfold runJobs
  split
  · simp at h
  · rfl

section Runs

theorem run_runEach_cons {σ : Type} (disk : Disk (StateM σ)) (s : Settings) (job : Job)
    (jobs : List Job) (now : σ) : (runEach disk s (job :: jobs)).run now =
      let first := (job.run disk s).run now
      let rest := (runEach disk s jobs).run first.2
      (((job, first.1.1) :: rest.1.1, first.1.2 ++ job.warnings first.1.1 ++ rest.1.2), rest.2) :=
  rfl

variable {disk : Disk (StateM FileMap)} {s : Settings} {files : FileMap}
variable {outcome : Job → Except Failure Report × Log} {texts : Job → List (Path × String)}

/-- If no job writes what a later one reads, each does what it would do first. -/
theorem run_runEach (htexts : ∀ job, ∀ t ∈ texts job, t.1 ∈ job.files)
    (hrun : ∀ job (now : FileMap), now job.input.components = files job.input.components →
      (job.run disk s).run now = (outcome job, now.putAll (texts job))) :
    ∀ (order : List Job) (now : FileMap),
      (order.Pairwise fun job later => ∀ p ∈ job.files, p.components ≠ later.input.components) →
      (∀ job ∈ order, now job.input.components = files job.input.components) →
        ∃ log, (runEach disk s order).run now =
          ((order.map fun job => (job, (outcome job).1), log),
            order.foldl (fun now job => now.putAll (texts job)) now)
  | [], now, _, _ => ⟨[], rfl⟩
  | job :: order, now, hapart, hnow => by
    obtain ⟨hjob, horder⟩ := List.pairwise_cons.1 hapart
    obtain ⟨hinput, hnow⟩ := List.forall_mem_cons.1 hnow
    have hnext : ∀ later ∈ order, now.putAll (texts job) later.input.components =
        files later.input.components := fun later hlater => by
      rw [FileMap.putAll_of_ne now fun t ht => hjob later hlater t.1 (htexts job t ht)]
      exact hnow later hlater
    obtain ⟨log, hrest⟩ := run_runEach htexts hrun order _ horder hnext
    refine ⟨(outcome job).2 ++ job.warnings (outcome job).1 ++ log, ?_⟩
    rw [run_runEach_cons, hrun job now hinput]
    simp only [hrest, List.map_cons, List.foldl_cons]

end Runs

/-- Jobs that keep apart and write different files can be run in any order. -/
theorem orderFree_of_apart {jobs : List Job} (hlength : 2 ≤ jobs.length) (hnodup : jobs.Nodup)
    (hwrites : ∀ job ∈ jobs, ∀ other ∈ jobs, job ≠ other →
      ∀ p ∈ job.files, ∀ q ∈ other.files, p.components ≠ q.components)
    (hreads : Apart jobs) : OrderFree jobs := by
  intro refusal s files order hperm
  choose outcome texts htexts hrun using fun job : Job =>
    job.exists_run refusal s (files job.input.components)
  have hpairwise : ∀ {order : List Job}, order.Perm jobs →
      order.Pairwise fun job later => ∀ p ∈ job.files, p.components ≠ later.input.components :=
    fun hperm => (hperm.nodup_iff.2 hnodup).pairwise_of_forall_ne fun job hjob later hlater =>
      hreads job (hperm.mem_iff.1 hjob) later (hperm.mem_iff.1 hlater)
  obtain ⟨log, hafter⟩ := run_runEach htexts hrun order files (hpairwise hperm) fun _ _ => rfl
  obtain ⟨log', hafter'⟩ := run_runEach htexts hrun jobs files (hpairwise (.refl _)) fun _ _ => rfl
  have hcomm : ∀ job ∈ order, ∀ other ∈ order, ∀ now : FileMap,
      (now.putAll (texts job)).putAll (texts other) =
        (now.putAll (texts other)).putAll (texts job) := by
    intro job hjob other hother now
    by_cases hne : job = other
    · rw [hne]
    · refine now.putAll_comm fun t ht t' ht' => ?_
      exact hwrites job (hperm.mem_iff.1 hjob) other (hperm.mem_iff.1 hother) hne t.1
        (htexts job t ht) t'.1 (htexts other t' ht')
  rw [runJobs_eq (hperm.length_eq ▸ hlength), runJobs_eq hlength, hafter, hafter']
  exact ⟨hperm.map _, hperm.foldl_eq' hcomm files⟩

/-! ## A job in the way of another -/

/-- A metadata document is read as a document with nothing in it : all its members have other
names. -/
theorem parse_exportText (m : MetadataStore) : Document.parse m.exportText = .ok {} := by
  rw [Document.parse, MetadataStore.exportText, Json.prettyText, String.toList_ofList,
    Json.parse_pretty, MetadataStore.sorted_json]
  refine Document.want_unknown ?_
  simp only [List.forall_mem_cons, List.not_mem_nil, false_imp_iff, implies_true, and_true]
  decide

/-- The failure of a chart whose document has nothing in it. -/
def nothingFailure : Failure :=
  .missingInput Chart.generatorName DocumentField.symbols.key []

/-- A function that calls nothing. -/
def loneDocument : Document where
  symbols := .ofList [{ name := "f", path := ⟨"f.py"⟩ }]
  calls := .ofList [("f", [])]

/-- The function can be drawn, and something is known of its chart. -/
theorem loneDocument_spec :
    (∃ r, ((Frame.ofSettings {}).render (Chart.generator {} loneDocument)).1 = .ok r) ∧
      (Chart.draw {} loneDocument).metadata.isEmpty = false := by
  refine ⟨?_, by decide +kernel⟩
  have hs : ({} : Settings).fault? = none := by decide +kernel
  have hd : Chart.ready loneDocument = .ok () := by decide +kernel
  have hbalanced : (Chart.lineCounts {} loneDocument).opened =
      (Chart.lineCounts {} loneDocument).closed := by
    decide +kernel
  have hmarks : (Chart.lineCounts {} loneDocument).nodes ≤ 500 ∧
      (Chart.lineCounts {} loneDocument).edges ≤ 1000 ∧
        (Chart.lineCounts {} loneDocument).opened ≤ 200 := by
    decide +kernel
  have hsize : (Chart.lineCounts {} loneDocument).size ≤ 50000 := by
    simp only [Chart.lineCounts, Chart.text, Frame.text, Text.unlines, String.length_ofList]
    decide +kernel
  have hwithin : ({} : Settings).limits.exceeded? (Chart.lineCounts {} loneDocument) = none :=
    Limits.exceeded?_eq_none_iff.2 ⟨hmarks.1, hmarks.2.1, hmarks.2.2, hsize⟩
  rw [Chart.render_generator hs hd, Limits.verdict_of_within hbalanced hwithin]
  exact ⟨_, rfl⟩

/-- A job that finds a document whose chart can be drawn leaves beside the diagram what is known of
it. -/
theorem run_of_drawn {s : Settings} {d : Document} {r : Rendering}
    (hrender : ((Frame.ofSettings s).render (Chart.generator s d)).1 = .ok r)
    (hne : (Chart.draw s d).metadata.isEmpty = false) {job : Job} {files : FileMap}
    (h : files job.input.components = some d.text) :
    ∃ report, ((job.run (FileMap.disk fun _ => none) s).run files).1.1 = .ok report ∧
      ((job.run (FileMap.disk fun _ => none) s).run files).2
          (Frame.metadataPath job.output).components =
        some (Chart.draw s d).metadata.exportText := by
  have hstore : (Chart.generator s d).metadata = some (Chart.draw s d).metadata := rfl
  obtain ⟨report, log, hrun⟩ := FileMap.run_publish_of_ok hrender hstore hne job.output files
  rw [Job.run_of_parse h d.parse_text, hrun]
  refine ⟨report, rfl, ?_⟩
  dsimp only
  rw [FileMap.put_self]

/-- A job that finds a metadata document finds nothing in it. -/
theorem run_exportText (refusal : Path → Option String) (s : Settings) {job : Job}
    {files : FileMap} {store : MetadataStore}
    (h : files job.input.components = some store.exportText) :
    ((job.run (FileMap.disk refusal) s).run files).1.1 = .error nothingFailure := by
  rw [Job.run_of_parse h (parse_exportText store)]
  rfl

/-- Results are in the order of the jobs. -/
theorem fst_run_runEach {σ : Type} (disk : Disk (StateM σ)) (s : Settings) :
    ∀ (jobs : List Job) (now : σ), (((runEach disk s jobs).run now).1.1).map Prod.fst = jobs
  | [], _ => rfl
  | job :: jobs, now => by
    rw [run_runEach_cons]
    exact congrArg (job :: ·) (fst_run_runEach disk s jobs _)

/-- If what is known of one chart is put where another job reads, the other job fails behind the
first one and comes out well before it. -/
theorem run_crossed {s : Settings} {d : Document} {r : Rendering}
    (hrender : ((Frame.ofSettings s).render (Chart.generator s d)).1 = .ok r)
    (hne : (Chart.draw s d).metadata.isEmpty = false) {job other : Job} {files : FileMap}
    (hjob : files job.input.components = some d.text)
    (hother : files other.input.components = some d.text)
    (h : (Frame.metadataPath job.output).components = other.input.components) (rest : List Job) :
    (other, .error nothingFailure) ∈
        ((runEach (FileMap.disk fun _ => none) s (job :: other :: rest)).run files).1.1 ∧
      ∃ report, (other, .ok report) ∈
        ((runEach (FileMap.disk fun _ => none) s (other :: job :: rest)).run files).1.1 := by
  obtain ⟨-, -, hleft⟩ := run_of_drawn hrender hne hjob
  obtain ⟨report, hreport, -⟩ := run_of_drawn hrender hne hother
  constructor
  · rw [h] at hleft
    simp only [run_runEach_cons, run_exportText _ s hleft]
    exact List.mem_cons_of_mem _ List.mem_cons_self
  · refine ⟨report, ?_⟩
    simp only [run_runEach_cons, hreport]
    exact List.mem_cons_self

/-- Jobs of which one puts what it knows where another one reads cannot be run in any order. -/
theorem not_orderFree {jobs : List Job} (hlength : 2 ≤ jobs.length) (hnodup : jobs.Nodup)
    {job other : Job} (hjob : job ∈ jobs) (hother : other ∈ jobs) (hne : job ≠ other)
    (h : (Frame.metadataPath job.output).components = other.input.components) :
    ¬ OrderFree jobs := by
  intro hfree
  obtain ⟨⟨r, hrender⟩, hdrawn⟩ := loneDocument_spec
  obtain ⟨files, hfiles⟩ : ∃ files : FileMap, ∀ place, files place = some loneDocument.text :=
    ⟨fun _ => some loneDocument.text, fun _ => rfl⟩
  set rest := (jobs.erase job).erase other
  have hperm : (job :: other :: rest).Perm jobs :=
    ((List.perm_cons_erase ((List.mem_erase_of_ne hne.symm).2 hother)).symm.cons job).trans
      (List.perm_cons_erase hjob).symm
  have hperm' : (other :: job :: rest).Perm jobs := (List.Perm.swap job other rest).trans hperm
  have hbehind := (hfree (fun _ => none) {} files _ hperm).1
  have hbefore := (hfree (fun _ => none) {} files _ hperm').1
  rw [runJobs_eq (hperm.length_eq ▸ hlength), runJobs_eq hlength] at hbehind
  rw [runJobs_eq (hperm'.length_eq ▸ hlength), runJobs_eq hlength] at hbefore
  obtain ⟨hfails, report, hreport⟩ := run_crossed hrender hdrawn (hfiles _) (hfiles _) h rest
  have hresults : ((((runEach (FileMap.disk fun _ => none) {} jobs).run files).1.1).map
      Prod.fst).Nodup := by
    rwa [fst_run_runEach]
  have hsame := List.inj_on_of_nodup_map hresults (hbehind.mem_iff.1 hfails)
    (hbefore.mem_iff.1 hreport) rfl
  exact absurd (congrArg Prod.snd hsame) (by simp)

/-! ## Jobs that are planned -/

/-- The stem of a file that a diagram could be in is the stem of the diagram. -/
theorem diagramStem_of_components {p : Path} {steps : List Component} {stem : String}
    (hstem : stem ≠ "") (h : p.components = steps ++ [diagramStep stem]) :
    diagramStem p = stem := by
  have hname : stem ++ ".md" = stem ++ "." ++ "md" := by
    rw [String.append_assoc]
    rfl
  rw [diagramStem, Path.stem?, Path.fileName?, h, List.getLast?_concat, diagramStep, hname]
  simp only [Option.bind_some, Component.name?, Option.map_some,
    splitExtension_append hstem (show '.' ∉ "md".toList by decide), Option.getD_some]

section Planned

variable {inputs : List Path} {output : Path}

/-- Different jobs have inputs of different stems. -/
theorem exists_stem_ne (hstems : (inputs.map diagramStem).Nodup) {job other : Job}
    (hjob : job ∈ inputs.map (Job.ofInput output))
    (hother : other ∈ inputs.map (Job.ofInput output)) (hne : job ≠ other) :
    ∃ input input', job = Job.ofInput output input ∧ other = Job.ofInput output input' ∧
      diagramStem input ≠ diagramStem input' := by
  obtain ⟨input, hinput, rfl⟩ := List.mem_map.1 hjob
  obtain ⟨input', hinput', rfl⟩ := List.mem_map.1 hother
  refine ⟨input, input', rfl, rfl, fun heq => hne ?_⟩
  rw [List.inj_on_of_nodup_map hstems hinput hinput' heq]

theorem components_of_mem_files {input p : Path} (hp : p ∈ (Job.ofInput output input).files) :
    p.components = output.components ++ [diagramStep (diagramStem input)] ∨
      p.components = output.components ++ [metadataStep (diagramStem input)] := by
  have hmem : p.components ∈ (Job.ofInput output input).files.map Path.components :=
    List.mem_map_of_mem hp
  simpa [Job.components_files_ofInput] using hmem

/-- Different jobs write different files. -/
theorem files_ne (hstems : (inputs.map diagramStem).Nodup) {job other : Job}
    (hjob : job ∈ inputs.map (Job.ofInput output))
    (hother : other ∈ inputs.map (Job.ofInput output)) (hne : job ≠ other) :
    ∀ p ∈ job.files, ∀ q ∈ other.files, p.components ≠ q.components := by
  obtain ⟨input, input', rfl, rfl, hstem⟩ := exists_stem_ne hstems hjob hother hne
  intro p hp q hq heq
  rcases components_of_mem_files hp with hp | hp <;> rcases components_of_mem_files hq with hq | hq
  all_goals
    rw [hp, hq] at heq
    have hstep := List.singleton_inj.1 (List.append_cancel_left heq)
  · exact hstem (diagramStep_injective hstep)
  · exact diagramStep_ne_metadataStep _ _ hstep
  · exact diagramStep_ne_metadataStep _ _ hstep.symm
  · exact hstem (metadataStep_injective hstep)

/-- No diagram goes to the input of another job. -/
theorem output_ne_input (hstems : (inputs.map diagramStem).Nodup) {job other : Job}
    (hjob : job ∈ inputs.map (Job.ofInput output))
    (hother : other ∈ inputs.map (Job.ofInput output)) (hne : job ≠ other) :
    job.output.components ≠ other.input.components := by
  obtain ⟨input, input', rfl, rfl, hstem⟩ := exists_stem_ne hstems hjob hother hne
  intro heq
  rw [Job.ofInput, components_diagramPath] at heq
  exact hstem (diagramStem_of_components (diagramStem_ne_empty input) heq.symm).symm

/-- Jobs that are planned for several inputs never put a diagram where another one reads. They can
be run in any order if and only if none puts what is known of its chart there. -/
theorem planJobs_orderFree_iff (h : 2 ≤ inputs.length) {jobs : List Job}
    (hjobs : planJobs inputs output = .ok jobs) :
    (∀ job ∈ jobs, ∀ other ∈ jobs, job ≠ other →
      job.output.components ≠ other.input.components) ∧
    (OrderFree jobs ↔ ∀ job ∈ jobs, ∀ other ∈ jobs, job ≠ other →
      (Frame.metadataPath job.output).components ≠ other.input.components) := by
  obtain ⟨rfl, hstems⟩ := (planJobs_eq_ok_iff h output).1 hjobs
  have houtput : ∀ job ∈ inputs.map (Job.ofInput output),
      ∀ other ∈ inputs.map (Job.ofInput output), job ≠ other →
        job.output.components ≠ other.input.components := fun _ hjob _ hother hne =>
    output_ne_input hstems hjob hother hne
  have hlength : 2 ≤ (inputs.map (Job.ofInput output)).length := by rwa [List.length_map]
  have hnodup : (inputs.map (Job.ofInput output)).Nodup := by
    refine List.Nodup.map_on (fun input hinput input' hinput' heq => ?_) hstems.of_map
    exact congrArg Job.input heq
  refine ⟨houtput, ⟨fun hfree job hjob other hother hne hmeet =>
    not_orderFree hlength hnodup hjob hother hne hmeet hfree, fun hmetadata => ?_⟩⟩
  refine orderFree_of_apart hlength hnodup
    (fun _ hjob _ hother hne => files_ne hstems hjob hother hne) ?_
  intro job hjob other hother hne p hp
  rcases List.mem_cons.1 hp with rfl | hp
  · exact houtput job hjob other hother hne
  · rw [List.mem_singleton.1 hp]
    exact hmetadata job hjob other hother hne

end Planned

/-- Two inputs that are not where anything is written. -/
def asideJobs : List Job :=
  [⟨⟨"a.json"⟩, ⟨"out/a.md"⟩⟩, ⟨⟨"b/c.json"⟩, ⟨"out/c.md"⟩⟩]

theorem planJobs_orderFree_iff_asideJobs :
    2 ≤ (asideJobs.map Job.input).length ∧
      planJobs (asideJobs.map Job.input) ⟨"out"⟩ = .ok asideJobs ∧ OrderFree asideJobs := by
  have hlength : 2 ≤ (asideJobs.map Job.input).length := by decide
  have hjobs : planJobs (asideJobs.map Job.input) ⟨"out"⟩ = .ok asideJobs := by decide +kernel
  have hmetadata : ∀ job ∈ asideJobs, ∀ other ∈ asideJobs, job ≠ other →
      (Frame.metadataPath job.output).components ≠ other.input.components := by
    decide +kernel
  exact ⟨hlength, hjobs, (planJobs_orderFree_iff hlength hjobs).2.2 hmetadata⟩

/-! ## An input in the way -/

/-- Two inputs of which the second is where what is known of the first goes. -/
def crossedJobs : List Job :=
  [⟨⟨"a.json"⟩, ⟨"out/a.md"⟩⟩, ⟨⟨"out/a.metadata.json"⟩, ⟨"out/a.metadata.md"⟩⟩]

/-- The files of the two inputs. Both have the function. -/
def crossedFiles : FileMap := fun place =>
  if place ∈ crossedJobs.map fun job => job.input.components then some loneDocument.text else none

/-- The two inputs are planned although the first job writes where the second one reads. The second
job fails in this order and comes out well in the other. -/
theorem planJobs_crossedJobs :
    planJobs (crossedJobs.map Job.input) ⟨"out"⟩ = .ok crossedJobs ∧
      (∃ job ∈ crossedJobs, ∃ other ∈ crossedJobs, job ≠ other ∧
        (∃ p ∈ job.files, p.components = other.input.components) ∧
        (other, .error nothingFailure) ∈
          ((runJobs (FileMap.disk fun _ => none) {} crossedJobs).run crossedFiles).1.1 ∧
        ∃ report, (other, .ok report) ∈
          ((runJobs (FileMap.disk fun _ => none) {} crossedJobs.reverse).run crossedFiles).1.1) ∧
      ¬ OrderFree crossedJobs := by
  obtain ⟨⟨r, hrender⟩, hdrawn⟩ := loneDocument_spec
  set first : Job := ⟨⟨"a.json"⟩, ⟨"out/a.md"⟩⟩
  set second : Job := ⟨⟨"out/a.metadata.json"⟩, ⟨"out/a.metadata.md"⟩⟩
  have hfirst : first ∈ crossedJobs := List.mem_cons_self
  have hsecond : second ∈ crossedJobs := List.mem_cons_of_mem _ List.mem_cons_self
  have hne : first ≠ second := by decide
  have htwo : ∀ job other : Job, 2 ≤ [job, other].length := fun _ _ => Nat.le_refl 2
  have hmeet : (Frame.metadataPath first.output).components = second.input.components := by
    decide +kernel
  have hfiles : ∀ job ∈ crossedJobs, crossedFiles job.input.components = some loneDocument.text :=
    fun job hjob => if_pos (List.mem_map_of_mem hjob)
  obtain ⟨hfails, report, hreport⟩ :=
    run_crossed hrender hdrawn (hfiles first hfirst) (hfiles second hsecond) hmeet []
  refine ⟨by decide +kernel, ⟨first, hfirst, second, hsecond, hne,
    ⟨_, List.mem_cons_of_mem _ List.mem_cons_self, hmeet⟩, ?_, report, ?_⟩,
    not_orderFree (by decide) (by decide) hfirst hsecond hne hmeet⟩
  · have hjobs : crossedJobs = [first, second] := rfl
    rw [hjobs, runJobs_eq (htwo first second)]
    exact hfails
  · have hjobs : crossedJobs.reverse = [second, first] := rfl
    rw [hjobs, runJobs_eq (htwo second first)]
    exact hreport

end CallChart
