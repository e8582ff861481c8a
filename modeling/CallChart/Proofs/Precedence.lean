import CallChart.Proofs.Layers
import CallChart.Session

/-!
# Which layer decides

The settings of `generate` are the defaults under one layer, that of the command line on that of the
environment on that of the file (`Session.chosen`). The upper layers decide : `generate` works with
these settings if they can be used and gives up if they cannot. What the file says does no harm
where the environment covers it, for the two are checked together (`Session.run_loadSettings`).

But they are checked before the layer of the command line comes on top. So `generate` also gives up
where that layer covers them, even if the settings that come of it could be used
(`Session.exists_run_of_covers`). Main statement : `Session.heeds_iff`.
-/

namespace CallChart

/-! ## What is generated with -/

namespace Session

/-- The layer that a settings file says, if there is one, and what is left of the disk when it has
been read. -/
inductive Says {σ : Type} (disk : Disk (StateM σ)) (now : σ) : Option Path → Layer → σ → Prop where
  | nothing : Says disk now none {} now
  | file {p : Path} {text : String} {layer : Layer} {now' : σ}
      (hread : (disk.read p).run now = (.ok text, now'))
      (hparse : Layer.parse? text = some layer) : Says disk now (some p) layer now'

/-- Make the charts of a request to settings. -/
def charts {m : Type → Type} [Monad m] (disk : Disk m) (settings : Settings)
    (r : GenerateRequest) : m Outcome :=
  match planJobs r.inputs r.output with
  | .error clash => return giveUp ⟨clash.message, none⟩
  | .ok jobs => do
    let (results, log) ← runJobs disk settings jobs
    return summary r.showStats results log

/-- The complaint about settings that the layer of the command line makes unusable. -/
def invalidOption (fault : SettingsFault) : Complaint :=
  ⟨"Invalid option", (Failure.settings fault).message⟩

/-- The settings under the layers of file and environment. -/
def loaded (environment : String → Option String) (file : Layer) : Settings :=
  Settings.overlay {} ((Layer.ofVariables environment).over file)

/-- The settings under the layers of file, environment and command line. -/
def chosen (environment : String → Option String) (file flags : Layer) : Settings :=
  Settings.overlay {} (flags.over ((Layer.ofVariables environment).over file))

variable {σ : Type} {disk : Disk (StateM σ)} {environment : String → Option String}
variable {r : GenerateRequest} {now now' : σ} {file : Layer}

theorem overlay_loaded {flags : Layer} :
    (loaded environment file).overlay flags = chosen environment file flags :=
  Settings.overlay_overlay {} _ _

theorem generate_eq {m : Type → Type} [Monad m] (disk : Disk m)
    (environment : String → Option String) (r : GenerateRequest) :
    generate disk environment r = (do
      match ← generateSettings disk environment r with
      | .error complaint => return giveUp complaint
      | .ok settings => charts disk settings r) :=
  rfl

theorem run_bind_of_run {α β : Type} {x : StateM σ α} {a : α} (h : x.run now = (a, now'))
    (f : α → StateM σ β) : (x >>= f).run now = (f a).run now' := by
  rw [StateT.run_bind, h]
  rfl

theorem run_loadLayer {p : Path} (h : Says disk now (some p) file now') :
    (loadLayer disk p).run now = (.ok file, now') := by
  cases h with
  | file hread hparse =>
    rw [loadLayer, run_bind_of_run hread]
    simp only [hparse]
    rfl

/-- The settings of the file and the environment are checked by themselves. -/
theorem run_loadSettings {path : Option Path} (hfile : Says disk now path file now')
    (henvironment : Layer.Numeric environment) :
    (loadSettings disk environment path).run now =
      ((loaded environment file).fault?.elim (.ok (loaded environment file)) .error, now') := by
  rw [loadSettings.eq_def]
  simp only [Layer.ofEnvironment_eq environment henvironment, Settings.overlay_overlay]
  cases hfault : (loaded environment file).fault? <;> rw [loaded] at hfault
  all_goals
    cases path with
    | some p =>
      dsimp only
      rw [run_bind_of_run (run_loadLayer hfile)]
      simp only [bind, Except.bind, hfault]
      rfl
    | none =>
      cases hfile
      have hnone : (pure (.ok {}) : StateM σ (Except SettingsFault Layer)).run now =
        (.ok {}, now) := rfl
      dsimp only
      rw [run_bind_of_run hnone]
      simp only [bind, Except.bind, hfault]
      rfl

section Request

variable (hfile : Says disk now r.settings file now') (henvironment : Layer.Numeric environment)
include hfile henvironment

/-- The settings of `generate` are checked once more under the layer of the command line. -/
theorem run_generateSettings : (generateSettings disk environment r).run now =
    (match (loaded environment file).fault?, (chosen environment file r.layer).fault? with
      | some fault, _ => .error (unloadable fault)
      | none, some fault => .error (invalidOption fault)
      | none, none => .ok (chosen environment file r.layer), now') := by
  rw [generateSettings, run_bind_of_run (run_loadSettings hfile henvironment)]
  cases (loaded environment file).fault? with
  | some fault => rfl
  | none =>
    simp only [Option.elim_none, overlay_loaded]
    cases (chosen environment file r.layer).fault? <;> rfl

/-- What the layer of the command line covers is complained of. -/
theorem exists_run_of_covers (hcovers : r.layer.Covers (loaded environment file)) :
    ∃ fault, (loaded environment file).fault? = some fault ∧
      (generateSettings disk environment r).run now = (.error (unloadable fault), now') := by
  have hsettings := run_generateSettings hfile henvironment
  cases hloaded : (loaded environment file).fault? with
  | none => exact absurd hcovers (Settings.not_covers_of_fault? hloaded _)
  | some fault =>
    rw [hloaded] at hsettings
    exact ⟨fault, rfl, hsettings⟩

/-- Settings that cannot be used under all layers are complained of. -/
theorem exists_run_of_fault {fault : SettingsFault}
    (h : (chosen environment file r.layer).fault? = some fault) :
    ∃ complaint, (generateSettings disk environment r).run now = (.error complaint, now') := by
  have hsettings := run_generateSettings hfile henvironment
  rw [h] at hsettings
  cases hloaded : (loaded environment file).fault? with
  | some fault' => exact ⟨unloadable fault', by rw [hsettings, hloaded]⟩
  | none => exact ⟨invalidOption fault, by rw [hsettings, hloaded]⟩

end Request

/-! ## When the layers are heeded -/

/-- `generate` works with the settings if they can be used, and gives up if they cannot. -/
structure Heeds (disk : Disk (StateM σ)) (environment : String → Option String)
    (r : GenerateRequest) (now now' : σ) (s : Settings) : Prop where
  works : s.validate = .ok () →
    (generateSettings disk environment r).run now = (.ok s, now') ∧
      (generate disk environment r).run now = (charts disk s r).run now'
  refuses : s.validate ≠ .ok () → ∃ complaint,
    (generateSettings disk environment r).run now = (.error complaint, now') ∧
      (generate disk environment r).run now = (giveUp complaint, now')

theorem run_generate_of_ok {s : Settings}
    (h : (generateSettings disk environment r).run now = (.ok s, now')) :
    (generate disk environment r).run now = (charts disk s r).run now' := by
  rw [generate_eq, run_bind_of_run h]

theorem run_generate_of_error {complaint : Complaint}
    (h : (generateSettings disk environment r).run now = (.error complaint, now')) :
    (generate disk environment r).run now = (giveUp complaint, now') := by
  rw [generate_eq, run_bind_of_run h]
  rfl

theorem not_heeds_of_error {complaint : Complaint} {s : Settings} (hvalid : s.validate = .ok ())
    (h : (generateSettings disk environment r).run now = (.error complaint, now')) :
    ¬ Heeds disk environment r now now' s := by
  intro hheeds
  rw [(hheeds.works hvalid).1] at h
  cases h

/-- `generate` heeds the defaults under the layers of file, environment and command line, unless
the settings that come of them can be used and the layer of the command line covers those below.
What is covered is complained of, whatever covers it. -/
theorem heeds_iff (hfile : Says disk now r.settings file now')
    (henvironment : Layer.Numeric environment) :
    (Heeds disk environment r now now' (chosen environment file r.layer) ↔
      ¬ ((chosen environment file r.layer).validate = .ok () ∧
        r.layer.Covers (loaded environment file))) ∧
    (r.layer.Covers (loaded environment file) → ∃ fault,
      (loaded environment file).fault? = some fault ∧
        (generate disk environment r).run now = (giveUp (unloadable fault), now')) := by
  have hsettings := run_generateSettings hfile henvironment
  refine ⟨⟨?_, fun hfree => ⟨fun hvalid => ?_, fun hinvalid => ?_⟩⟩, fun hcovers => ?_⟩
  · rintro hheeds ⟨hvalid, hcovers⟩
    obtain ⟨fault, -, herror⟩ := exists_run_of_covers hfile henvironment hcovers
    exact not_heeds_of_error hvalid herror hheeds
  · have hchosen := Settings.validate_eq_ok_iff.1 hvalid
    have hloaded : (loaded environment file).fault? = none :=
      Settings.fault?_of_overlay (overlay_loaded ▸ hchosen) fun hcovers => hfree ⟨hvalid, hcovers⟩
    rw [hloaded, hchosen] at hsettings
    exact ⟨hsettings, run_generate_of_ok hsettings⟩
  · obtain ⟨fault, hchosen⟩ :=
      Option.ne_none_iff_exists'.1 (mt Settings.validate_eq_ok_iff.2 hinvalid)
    obtain ⟨complaint, herror⟩ := exists_run_of_fault hfile henvironment hchosen
    exact ⟨complaint, herror, run_generate_of_error herror⟩
  · obtain ⟨fault, hfault, herror⟩ := exists_run_of_covers hfile henvironment hcovers
    exact ⟨fault, hfault, run_generate_of_error herror⟩

/-! ## A theme that is not known -/

def neonLayer : Layer where
  theme := some "neon"

def darkLayer : Layer where
  theme := some "dark"

/-- Settings of an unknown theme. -/
def neonTree : FileTree where
  entries := [(["c.toml"], .file "theme = \"neon\"")]

theorem says_neonTree : Says FileTree.disk neonTree (some ⟨"c.toml"⟩) neonLayer neonTree :=
  have hread : (FileTree.disk.read ⟨"c.toml"⟩).run neonTree =
      (.ok "theme = \"neon\"", neonTree) := rfl
  .file hread (by decide +kernel)

/-- A chart to these settings, and what the command line says. -/
def neonRequest (flags : Layer) : GenerateRequest where
  inputs := [⟨"a.json"⟩]
  output := ⟨"a.md"⟩
  settings := some ⟨"c.toml"⟩
  layer := flags
  threads := none
  showStats := false

/-- A known theme in the environment. -/
def darkEnvironment (key : String) : Option String :=
  if key = "CODEFLOW_THEME" then some "dark" else none

theorem numeric_darkEnvironment : Layer.Numeric darkEnvironment := by
  simp [Layer.Numeric, Layer.numericVariables, darkEnvironment]

/-- A theme that the environment covers does no harm. -/
theorem heeds_iff_darkEnvironment :
    Says FileTree.disk neonTree (some ⟨"c.toml"⟩) neonLayer neonTree ∧
      Layer.Numeric darkEnvironment ∧
      Heeds FileTree.disk darkEnvironment (neonRequest { nodes := some 3 }) neonTree neonTree
        (chosen darkEnvironment neonLayer { nodes := some 3 }) := by
  have hcovers : ¬ Layer.Covers { nodes := some 3 } (loaded darkEnvironment neonLayer) := by
    decide +kernel
  exact ⟨says_neonTree, numeric_darkEnvironment,
    (heeds_iff (r := neonRequest { nodes := some 3 }) says_neonTree
      numeric_darkEnvironment).1.2 fun h => hcovers h.2⟩

/-- A theme that the command line covers makes `generate` give up, although the settings under all
layers can be used. -/
theorem not_heeds_darkOption :
    let words := ["generate", "-i", "a.json", "-o", "a.md", "-c", "c.toml", "--theme", "dark"]
    let said := "Error: Failed to load configuration\n\nCaused by:\n    invalid configuration: " ++
      "unknown theme 'neon' (expected one of default, dark, pastel, mono)\n"
    Command.ofWords words = .ok (.generate (neonRequest darkLayer), false) ∧
      (chosen (fun _ => none) neonLayer darkLayer).validate = .ok () ∧
      ((generate FileTree.disk (fun _ => none) (neonRequest darkLayer)).run neonTree).1.err =
        said ∧
      ¬ Heeds FileTree.disk (fun _ => none) (neonRequest darkLayer) neonTree neonTree
        (chosen (fun _ => none) neonLayer darkLayer) := by
  have hvalid : (chosen (fun _ => none) neonLayer darkLayer).validate = .ok () :=
    Settings.validate_eq_ok_iff.2 (by decide +kernel)
  have henvironment : Layer.Numeric fun _ => none := by simp [Layer.Numeric]
  have hcovers : darkLayer.Covers (loaded (fun _ => none) neonLayer) := by decide +kernel
  obtain ⟨fault, -, herror⟩ :=
    exists_run_of_covers (r := neonRequest darkLayer) says_neonTree henvironment hcovers
  exact ⟨by rfl, hvalid, by decide +kernel, not_heeds_of_error hvalid herror⟩

end Session

end CallChart
