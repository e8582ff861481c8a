import CallChart.Proofs.Planning

/-!
# Jobs on file maps

A file map has texts at paths and nothing else : no directories that might be missing, and one text
at all spellings of a path. As a disk it finds the text at a path and puts texts there, except at
the paths that are refused.

On a file map a job depends on the text at its input only. What comes of it, and the texts that it
puts at files of its own, are the same whatever else there is (`Job.exists_run`). Texts at different
paths can be put there in any order (`putAll_comm`).
-/

namespace CallChart

/-- The texts of files, each under the steps of its path. -/
abbrev FileMap := List Component → Option String

namespace FileMap

/-- Put a text at a path. -/
def put (files : FileMap) (p : Path) (text : String) : FileMap := fun place =>
  if place = p.components then some text else files place

/-- Put texts at paths, one after another. -/
def putAll (files : FileMap) (texts : List (Path × String)) : FileMap :=
  texts.foldl (fun files t => files.put t.1 t.2) files

/-- The disk that a file map is. For some paths there may be a cause why they cannot be written. -/
def disk (refusal : Path → Option String) : Disk (StateM FileMap) where
  read p := do
    match (← get) p.components with
    | some text => return .ok text
    | none => return .error FileFault.notFound.message
  write p text := do
    match refusal p with
    | some cause => return .error cause
    | none =>
      modify fun files => files.put p text
      return .ok ()

/-! ## Putting texts -/

theorem put_self (files : FileMap) (p : Path) (text : String) :
    files.put p text p.components = some text :=
  if_pos rfl

theorem put_of_ne (files : FileMap) {p : Path} {place : List Component} (h : p.components ≠ place)
    (text : String) : files.put p text place = files place :=
  if_neg (Ne.symm h)

theorem putAll_of_ne : ∀ {texts : List (Path × String)} (files : FileMap) {place : List Component},
    (∀ t ∈ texts, t.1.components ≠ place) → files.putAll texts place = files place
  | [], _, _, _ => rfl
  | t :: texts, files, place, h => by
    obtain ⟨ht, htexts⟩ := List.forall_mem_cons.1 h
    rw [putAll, List.foldl_cons, ← putAll, putAll_of_ne _ htexts, put_of_ne files ht]

/-- What is found at a place does not depend on other places. -/
theorem putAll_congr : ∀ {texts : List (Path × String)} {files files' : FileMap}
    {place : List Component}, files place = files' place →
      files.putAll texts place = files'.putAll texts place
  | [], _, _, _, h => h
  | t :: texts, files, files', place, h => by
    have hput : files.put t.1 t.2 place = files'.put t.1 t.2 place := by rw [put, put, h]
    rw [putAll, putAll, List.foldl_cons, List.foldl_cons]
    exact putAll_congr hput

/-- Texts at different paths can be put there in any order. -/
theorem putAll_comm (files : FileMap) {texts texts' : List (Path × String)}
    (h : ∀ t ∈ texts, ∀ t' ∈ texts', t.1.components ≠ t'.1.components) :
    (files.putAll texts).putAll texts' = (files.putAll texts').putAll texts := by
  funext place
  by_cases hplace : ∃ t ∈ texts, t.1.components = place
  · obtain ⟨t, ht, rfl⟩ := hplace
    rw [putAll_of_ne _ fun t' ht' => (h t ht t' ht').symm]
    exact putAll_congr (putAll_of_ne _ fun t' ht' => (h t ht t' ht').symm).symm
  · have hne : ∀ t ∈ texts, t.1.components ≠ place := fun t ht heq => hplace ⟨t, ht, heq⟩
    rw [putAll_of_ne _ hne]
    exact putAll_congr (putAll_of_ne _ hne)

/-! ## Reading and writing -/

variable (refusal : Path → Option String)

theorem run_read_of_some {files : FileMap} {p : Path} {text : String}
    (h : files p.components = some text) :
    ((disk refusal).read p).run files = (.ok text, files) := by
  simp only [disk, StateT.run_bind, StateT.run_get, h, pure_bind]
  rfl

theorem run_read_of_none {files : FileMap} {p : Path} (h : files p.components = none) :
    ((disk refusal).read p).run files = (.error FileFault.notFound.message, files) := by
  simp only [disk, StateT.run_bind, StateT.run_get, h, pure_bind]
  rfl

theorem run_write_of_none {p : Path} (h : refusal p = none) (files : FileMap) (text : String) :
    ((disk refusal).write p text).run files = (.ok (), files.put p text) := by
  simp only [disk, h]
  rfl

theorem run_write_of_some {p : Path} {cause : String} (h : refusal p = some cause)
    (files : FileMap) (text : String) :
    ((disk refusal).write p text).run files = (.error cause, files) := by
  simp only [disk, h]
  rfl

/-! ## Steady computations -/

section Steady

variable {α β : Type} {P : Path → Prop}

/-- A computation that comes to one result and puts one list of texts, all at paths of which `P`
holds, whatever files there are. -/
def Steady (P : Path → Prop) (x : StateM FileMap α) : Prop :=
  ∃ a texts, (∀ t ∈ texts, P t.1) ∧ ∀ files, x.run files = (a, files.putAll texts)

theorem Steady.pure (a : α) : Steady P (pure a : StateM FileMap α) :=
  ⟨a, [], nofun, fun _ => rfl⟩

theorem Steady.bind {x : StateM FileMap α} {k : α → StateM FileMap β} (hx : Steady P x)
    (hk : ∀ a, Steady P (k a)) : Steady P (x >>= k) := by
  obtain ⟨a, texts, htexts, hx⟩ := hx
  obtain ⟨b, texts', htexts', hk⟩ := hk a
  refine ⟨b, texts ++ texts', List.forall_mem_append.2 ⟨htexts, htexts'⟩, fun files => ?_⟩
  rw [StateT.run_bind, hx]
  change (k a).run (files.putAll texts) = _
  rw [hk, putAll, putAll, putAll, List.foldl_append]

variable {refusal}

theorem steady_write {p : Path} (h : P p) (text : String) :
    Steady P ((disk refusal).write p text) := by
  cases hrefusal : refusal p with
  | some cause => exact ⟨_, [], nofun, fun files => run_write_of_some refusal hrefusal files text⟩
  | none =>
    exact ⟨_, [(p, text)], by simpa using h,
      fun files => run_write_of_none refusal hrefusal files text⟩

theorem steady_publishMetadata (g : Generator) {output : Path} (h : P (Frame.metadataPath output)) :
    Steady P (Frame.publishMetadata (disk refusal).write g output) := by
  rw [Frame.publishMetadata]
  split
  · exact .pure _
  · refine .bind (steady_write h _) fun answer => ?_
    split <;> exact .pure _

/-- Publishing puts texts at the output and beside it only. -/
theorem steady_publish (f : Frame) (g : Generator) {output : Path} (houtput : P output)
    (hmetadata : P (Frame.metadataPath output)) :
    Steady P (f.publish (disk refusal).write g output) := by
  rw [Frame.publish]
  split
  · exact .pure _
  · refine .bind (steady_write houtput _) fun answer => ?_
    split
    · exact .pure _
    · exact .bind (steady_publishMetadata g hmetadata) fun _ => .pure _

/-- Where nothing is refused, a diagram that passes its check is put at the output, and what is
known of it beside it. -/
theorem run_publish_of_ok {f : Frame} {g : Generator} {r : Rendering} {store : MetadataStore}
    (hrender : (f.render g).1 = .ok r) (hstore : g.metadata = some store)
    (hne : store.isEmpty = false) (output : Path) (files : FileMap) :
    ∃ report log, (f.publish (disk fun _ => none).write g output).run files =
      ((.ok report, log),
        (files.put output r.text).put (Frame.metadataPath output) store.exportText) := by
  rw [Frame.publish]
  generalize f.render g = rendered at hrender
  obtain ⟨result, log⟩ := rendered
  obtain rfl : result = .ok r := hrender
  have hkeep : g.metadata.filter (fun store => !store.isEmpty) = some store := by
    rw [hstore, Option.filter_some, hne]
    rfl
  have hwrite : ∀ p (files : FileMap) text, ((disk fun _ => none).write p text).run files =
      (.ok (), files.put p text) := fun _ files text => run_write_of_none _ rfl files text
  simp only [Frame.publishMetadata, hkeep, StateT.run_bind, hwrite]
  exact ⟨_, _, rfl⟩

/-- What goes on behind the reading of a file depends on the text of the file only. -/
theorem exists_run_read {k : Except String String → StateM FileMap α}
    (hk : ∀ answer, Steady P (k answer)) (p : Path) (input : Option String) :
    ∃ a texts, (∀ t ∈ texts, P t.1) ∧ ∀ files : FileMap, files p.components = input →
      ((disk refusal).read p >>= k).run files = (a, files.putAll texts) := by
  cases input with
  | none =>
    obtain ⟨a, texts, htexts, hrun⟩ := hk (.error FileFault.notFound.message)
    refine ⟨a, texts, htexts, fun files hinput => ?_⟩
    rw [StateT.run_bind, run_read_of_none refusal hinput]
    exact hrun files
  | some text =>
    obtain ⟨a, texts, htexts, hrun⟩ := hk (.ok text)
    refine ⟨a, texts, htexts, fun files hinput => ?_⟩
    rw [StateT.run_bind, run_read_of_some refusal hinput]
    exact hrun files

end Steady

end FileMap

/-! ## Jobs -/

/-- What a job does depends on the text at its input only, and it puts texts at its own files
only. -/
theorem Job.exists_run (refusal : Path → Option String) (s : Settings) (job : Job)
    (input : Option String) : ∃ outcome texts, (∀ t ∈ texts, t.1 ∈ job.files) ∧
      ∀ files : FileMap, files job.input.components = input →
        (job.run (FileMap.disk refusal) s).run files = (outcome, files.putAll texts) := by
  rw [Job.run]
  refine FileMap.exists_run_read (fun answer => ?_) job.input input
  split
  · exact .pure _
  · split
    · exact .pure _
    · exact FileMap.steady_publish _ _ List.mem_cons_self
        (List.mem_cons_of_mem _ List.mem_cons_self)

/-- A job that finds a document publishes its chart. -/
theorem Job.run_of_parse {refusal : Path → Option String} {s : Settings} {job : Job}
    {files : FileMap} {text : String} {d : Document}
    (hinput : files job.input.components = some text) (hparse : Document.parse text = .ok d) :
    (job.run (FileMap.disk refusal) s).run files =
      ((Frame.ofSettings s).publish (FileMap.disk refusal).write (Chart.generator s d)
        job.output).run files := by
  rw [Job.run, StateT.run_bind, FileMap.run_read_of_some refusal hinput]
  refine (pure_bind (m := Id) (Except.ok text, files) _).trans ?_
  simp only [hparse]

end CallChart
