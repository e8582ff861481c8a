import CallChart.Proofs.Framing

/-!
# Publishing, all or nothing

A `Writer` accepts or refuses each write, whichever it likes : its answer may depend on all that
was asked of it before. Publishing through a writer leaves a list of attempts.

A publication that fails has written nothing (`Frame.Refused` says for which reasons it can fail).
One that comes out well has written a text that passed its check with the counts of the report,
and behind it at most the metadata beside it (`Frame.Published`). `Frame.publish_outcome` is that
there is no third way.
-/

namespace CallChart

/-! ## Writers -/

/-- A write that was asked for, and the answer. -/
structure Attempt where
  path : Path
  text : String
  answer : Except String Unit

namespace Attempt

/-- The files that were written, in order. -/
def written (attempts : List Attempt) : List (Path × String) :=
  (attempts.filter fun a => a.answer.isOk).map fun a => (a.path, a.text)

end Attempt

/-- Answers each write, knowing the attempts before it. -/
abbrev Writer := List Attempt → Path → String → Except String Unit

namespace Writer

/-- Ask a writer and keep a record of it. -/
def write (w : Writer) : Frame.Write (StateM (List Attempt)) := fun path text => do
  let before ← get
  let answer := w before path text
  set (before ++ [⟨path, text, answer⟩])
  return answer

theorem run_write (w : Writer) (path : Path) (text : String) (before : List Attempt) :
    (w.write path text).run before =
      (w before path text, before ++ [⟨path, text, w before path text⟩]) :=
  rfl

end Writer

/-- The metadata of a generator that has anything on record. -/
def Generator.store? (g : Generator) : Option MetadataStore :=
  g.metadata.filter fun store => !store.isEmpty

namespace Frame

/-! ## What a publication comes to -/

section Outcome

variable (f : Frame) (w : Writer) (g : Generator) (output : Path)

/-- Why a publication fails : for a reason of the generator, because the text does not pass its
check, or because the text has passed and cannot be written. -/
inductive Refused : Failure → Prop where
  | notReady {failure : Failure} (hready : g.ready = .error failure) : Refused failure
  | noBody {failure : Failure} (hready : g.ready = .ok ()) (hbody : g.body = .error failure) :
    Refused failure
  | faulty {failure : Failure} {body : List String} (hready : g.ready = .ok ())
    (hbody : g.body = .ok body) (hcheck : f.limits.check (f.text body).toList = .error failure) :
    Refused failure
  | unwritable {body : List String} {counts : Counts} {cause : String} (hready : g.ready = .ok ())
    (hbody : g.body = .ok body) (hcheck : f.limits.check (f.text body).toList = .ok counts)
    (hanswer : w [] output (f.text body) = .error cause) : Refused (.write output cause)

/-- The metadata document, if there are metadata and the writer accepts them behind the text. -/
def companion? (text : String) : Option (Path × String) :=
  g.store?.bind fun store =>
    match w [⟨output, text, .ok ()⟩] (metadataPath output) store.exportText with
    | .ok _ => some (metadataPath output, store.exportText)
    | .error _ => none

/-- A text has been written that had passed its check, and its report is true. -/
structure Published (body : List String) (report : Report) (files : List (Path × String)) :
    Prop where
  ready : g.ready = .ok ()
  made : g.body = .ok body
  checked : f.limits.check (f.text body).toList = .ok report.counts
  written : files = (output, f.text body) :: (companion? w g output (f.text body)).toList
  place : report.output = output
  metadata : report.metadata = (companion? w g output (f.text body)).map Prod.fst
  stats : report.stats = g.store?.map MetadataStore.stats
  stages : report.stages = Stage.all

end Outcome

/-! ## Step by step -/

variable {f : Frame} {w : Writer} {g : Generator} {output : Path}

theorem run_publish_of_error (w : Writer) (output : Path) {failure : Failure}
    (h : (f.render g).1 = .error failure) (before : List Attempt) :
    ∃ log, (f.publish w.write g output).run before = ((.error failure, log), before) := by
  rw [publish]
  generalize f.render g = rendered at h
  obtain ⟨result, log⟩ := rendered
  obtain rfl : result = .error failure := h
  exact ⟨log, rfl⟩

theorem run_publish_of_refused {r : Rendering} {cause : String} {before : List Attempt}
    (h : (f.render g).1 = .ok r) (hw : w before output r.text = .error cause) :
    ∃ log, (f.publish w.write g output).run before =
      ((.error (.write output cause), log), before ++ [⟨output, r.text, .error cause⟩]) := by
  rw [publish]
  generalize f.render g = rendered at h
  obtain ⟨result, log⟩ := rendered
  obtain rfl : result = .ok r := h
  refine ⟨log, ?_⟩
  simp only [StateT.run_bind, Writer.run_write, hw]
  rfl

/-- Behind an accepted diagram the metadata are published and the report is made. -/
theorem run_publish_of_accepted {r : Rendering} {before : List Attempt}
    (h : (f.render g).1 = .ok r) (hw : w before output r.text = .ok ()) :
    ∃ log, (f.publish w.write g output).run before =
      let p := (publishMetadata w.write g output).run (before ++ [⟨output, r.text, .ok ()⟩])
      ((.ok ⟨output, p.1.1, r.counts, p.1.2.1, r.stages ++ [.written]⟩, log), p.2) := by
  rw [publish]
  generalize f.render g = rendered at h
  obtain ⟨result, log⟩ := rendered
  obtain rfl : result = .ok r := h
  simp only [StateT.run_bind, Writer.run_write, hw]
  exact ⟨_, rfl⟩

/-- Metadata are offered to the writer behind the diagram, and it is no failure if they are
refused. -/
theorem run_publishMetadata (w : Writer) (g : Generator) (output : Path) (text : String) :
    ∃ warnings attempts,
    (publishMetadata w.write g output).run [⟨output, text, .ok ()⟩] =
      (((companion? w g output text).map Prod.fst, g.store?.map MetadataStore.stats, warnings),
        attempts) ∧
      Attempt.written attempts = (output, text) :: (companion? w g output text).toList := by
  rw [companion?, publishMetadata, ← Generator.store?]
  cases g.store? with
  | none => exact ⟨[], _, rfl, rfl⟩
  | some store =>
    simp only [StateT.run_bind, Writer.run_write, Option.bind_some]
    generalize store.exportText = document, metadataPath output = place
    cases w [⟨output, text, .ok ()⟩] place document with
    | ok => exact ⟨[], _, rfl, rfl⟩
    | error cause => exact ⟨[_], _, rfl, rfl⟩

/-! ## All or nothing -/

/-- A publication fails and has written nothing, or it comes out well and has written what its
report says. -/
theorem publish_outcome (f : Frame) (w : Writer) (g : Generator) (output : Path) :
    match (f.publish w.write g output).run [] with
    | ((.error failure, _), attempts) =>
      Attempt.written attempts = [] ∧ Refused f w g output failure
    | ((.ok report, _), attempts) =>
      ∃ body, Published f w g output body report (Attempt.written attempts) := by
  cases hready : g.ready with
  | error failure =>
    obtain ⟨log, hrun⟩ := run_publish_of_error w output (render_of_notReady f hready) []
    rw [hrun]
    exact ⟨rfl, .notReady hready⟩
  | ok =>
    cases hbody : g.body with
    | error failure =>
      obtain ⟨log, hrun⟩ := run_publish_of_error w output (render_of_noBody f hready hbody) []
      rw [hrun]
      exact ⟨rfl, .noBody hready hbody⟩
    | ok body =>
      have hrender := render_eq f hready hbody
      cases hcheck : f.limits.check (f.text body).toList with
      | error failure =>
        rw [hcheck] at hrender
        obtain ⟨log, hrun⟩ := run_publish_of_error w output hrender []
        rw [hrun]
        exact ⟨rfl, .faulty hready hbody hcheck⟩
      | ok counts =>
        rw [hcheck] at hrender
        cases hanswer : w [] output (f.text body) with
        | error cause =>
          obtain ⟨log, hrun⟩ := run_publish_of_refused hrender hanswer
          rw [hrun]
          exact ⟨rfl, .unwritable hready hbody hcheck hanswer⟩
        | ok =>
          obtain ⟨log, hrun⟩ := run_publish_of_accepted hrender hanswer
          obtain ⟨warnings, attempts, hmetadata, hwritten⟩ :=
            run_publishMetadata w g output (f.text body)
          rw [List.nil_append, hmetadata] at hrun
          rw [hrun]
          exact ⟨body, hready, hbody, hcheck, hwritten, rfl, rfl, rfl, rfl⟩

end Frame

end CallChart
