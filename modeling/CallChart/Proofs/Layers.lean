import CallChart.Layer

/-!
# Layers on layers

A layer on top of another is one layer that says of each setting what the upper one says, and what
the lower one says where that says nothing (`Settings.overlay_overlay`). The layer of an environment
in which all numbers are numbers is what its variables say, each for its setting
(`Layer.ofEnvironment_eq`).

Settings can be used if each of a few of them can be used by itself (`Settings.fault?_eq_none_iff`).
A layer covers settings if it says one that could not be used below it (`Layer.Covers`). Under a
layer that does not cover them, settings can be used only if they can be used without it
(`Settings.fault?_of_overlay`).
-/

namespace CallChart

/-! ## Layers on layers -/

/-- What the upper limits say, and the lower ones where those say nothing. -/
def LimitsLayer.over (upper lower : LimitsLayer) : LimitsLayer where
  nodes := upper.nodes.or lower.nodes
  edges := upper.edges.or lower.edges
  blocks := upper.blocks.or lower.blocks
  size := upper.size.or lower.size

/-- What the upper layer says, and the lower one where that says nothing. -/
def Layer.over (upper lower : Layer) : Layer where
  entryPoints := upper.entryPoints.or lower.entryPoints
  nodes := upper.nodes.or lower.nodes
  depth := upper.depth.or lower.depth
  calls := upper.calls.or lower.calls
  perClass := upper.perClass.or lower.perClass
  labelFormat := upper.labelFormat.or lower.labelFormat
  theme := upper.theme.or lower.theme
  direction := upper.direction.or lower.direction
  title := upper.title.or lower.title
  root := upper.root.or lower.root
  limits := upper.limits.over lower.limits

theorem Limits.overlay_overlay (l : Limits) (lower upper : LimitsLayer) :
    (l.overlay lower).overlay upper = l.overlay (upper.over lower) := by
  simp only [Limits.overlay, LimitsLayer.over, Option.getD_or]

theorem Settings.overlay_overlay (s : Settings) (lower upper : Layer) :
    (s.overlay lower).overlay upper = s.overlay (upper.over lower) := by
  simp only [Settings.overlay, Layer.over, Option.getD_or, Option.or_assoc,
    Limits.overlay_overlay]

/-! ## Settings that can be used -/

/-- A setting that is checked : whether a layer says it, and whether it can be used. -/
structure CheckedSetting where
  said : Layer → Bool
  usable : Settings → Bool

/-- Caps have to be above zero, theme and direction have to be known. -/
def checkedSettings : List CheckedSetting :=
  [⟨fun l => l.entryPoints.isSome, fun s => s.entryPoints != 0⟩,
    ⟨fun l => l.nodes.isSome, fun s => s.nodes != 0⟩,
    ⟨fun l => l.depth.isSome, fun s => s.depth != 0⟩,
    ⟨fun l => l.calls.isSome, fun s => s.calls != 0⟩,
    ⟨fun l => l.perClass.isSome, fun s => s.perClass != 0⟩,
    ⟨fun l => l.theme.isSome, fun s => (Scheme.ofText? s.theme).isSome⟩,
    ⟨fun l => l.direction.isSome, fun s => Settings.directions.contains s.direction⟩]

/-- A layer says a setting that cannot be used in the settings below. -/
def Layer.Covers (upper : Layer) (s : Settings) : Prop :=
  ∃ c ∈ checkedSettings, c.said upper = true ∧ c.usable s = false

instance (upper : Layer) (s : Settings) : Decidable (upper.Covers s) :=
  inferInstanceAs (Decidable (∃ c ∈ checkedSettings, c.said upper = true ∧ c.usable s = false))

namespace Settings

variable {s : Settings}

theorem fault?_eq_none_iff :
    s.fault? = none ↔ ∀ c ∈ checkedSettings, c.usable s = true := by
  have hcaps : (s.caps.find? fun cap => cap.2 == 0) = none ↔
      s.entryPoints ≠ 0 ∧ s.nodes ≠ 0 ∧ s.depth ≠ 0 ∧ s.calls ≠ 0 ∧ s.perClass ≠ 0 := by
    simp [caps]
  have hchecked : (∀ c ∈ checkedSettings, c.usable s = true) ↔
      (s.caps.find? fun cap => cap.2 == 0) = none ∧
        (Scheme.ofText? s.theme).isSome = true ∧ directions.contains s.direction = true := by
    rw [hcaps]
    simp [checkedSettings, and_assoc]
  rw [hchecked, fault?]
  cases s.caps.find? fun cap => cap.2 == 0 <;> cases Scheme.ofText? s.theme <;>
    cases directions.contains s.direction <;> simp

theorem validate_eq_ok_iff : s.validate = .ok () ↔ s.fault? = none := by
  rw [validate]
  cases s.fault? <;> simp

/-- A setting that the upper layer does not say stays as it is. -/
theorem usable_overlay {upper : Layer} {c : CheckedSetting} (hc : c ∈ checkedSettings)
    (hsaid : c.said upper = false) : c.usable (s.overlay upper) = c.usable s := by
  simp only [checkedSettings, List.mem_cons, List.not_mem_nil, or_false] at hc
  rcases hc with rfl | rfl | rfl | rfl | rfl | rfl | rfl <;> simp_all [overlay]

theorem not_covers_of_fault? (h : s.fault? = none) (upper : Layer) : ¬ upper.Covers s := by
  rintro ⟨c, hc, -, hfault⟩
  exact absurd (fault?_eq_none_iff.1 h c hc) (by simp [hfault])

/-- If settings can be used under a layer, they can be used without it unless it covers them. -/
theorem fault?_of_overlay {upper : Layer} (h : (s.overlay upper).fault? = none)
    (hcovers : ¬ upper.Covers s) : s.fault? = none := by
  rw [fault?_eq_none_iff] at h ⊢
  intro c hc
  rw [← Bool.not_eq_false]
  intro hfault
  cases hsaid : c.said upper with
  | true => exact hcovers ⟨c, hc, hsaid, hfault⟩
  | false => exact absurd (h c hc) (by simp [usable_overlay hc hsaid, hfault])

end Settings

/-! ## The environment -/

namespace Layer

variable (environment : String → Option String)

/-- The number that a variable holds. -/
def number? (key : String) : Option Nat :=
  (environment key).bind fun value => readNumber? (Text.trim value.toList)

/-- The variables that are to hold numbers hold numbers, if they hold anything. -/
def Numeric : Prop :=
  ∀ key ∈ numericVariables.map Prod.fst, ∀ value, environment key = some value →
    (readNumber? (Text.trim value.toList)).isSome = true

/-- What the variables of the environment say. -/
def ofVariables : Layer where
  entryPoints := number? environment "CODEFLOW_MAX_ENTRY_POINTS"
  nodes := number? environment "CODEFLOW_MAX_NODES"
  depth := number? environment "CODEFLOW_MAX_DEPTH"
  calls := number? environment "CODEFLOW_MAX_CALLS"
  perClass := number? environment "CODEFLOW_MAX_FUNCTIONS_PER_CLASS"
  labelFormat := environment "CODEFLOW_LABEL_FORMAT"
  theme := environment "CODEFLOW_THEME"

/-- Without a fault, all numbers are taken into the layer. -/
theorem readNumbers_eq {vars : List (String × (Layer → Nat → Layer))}
    (h : ∀ key ∈ vars.map Prod.fst, ∀ value, environment key = some value →
      (readNumber? (Text.trim value.toList)).isSome = true) :
    ∀ l, readNumbers environment l vars =
      (vars.foldl (fun l v => (number? environment v.1).elim l (v.2 l)) l, none) := by
  induction vars with
  | nil => exact fun _ => rfl
  | cons v vars ih =>
    intro l
    obtain ⟨hkey, hvars⟩ := List.forall_mem_cons.1 h
    rw [readNumbers, List.foldl_cons, number?]
    cases hvalue : environment v.1 with
    | none => exact ih hvars l
    | some value =>
      obtain ⟨n, hn⟩ := Option.isSome_iff_exists.1 (hkey value hvalue)
      simp only [hn, Option.bind_some]
      exact ih hvars _

/-- To set what may be there is to set it if it is there. -/
theorem elim_set (n : Option Nat) (set : Option Nat → Layer) :
    n.elim (set none) (fun k => set (some k)) = set n := by
  cases n <;> rfl

/-- An environment whose numbers are numbers says what its variables say. -/
theorem ofEnvironment_eq (h : Numeric environment) :
    ofEnvironment environment = (ofVariables environment, none) := by
  have hnumbers : numericVariables.foldl
      (fun l v => (number? environment v.1).elim l (v.2 l)) ({} : Layer) =
        { ofVariables environment with labelFormat := none, theme := none } := by
    rw [numericVariables,
      List.foldl_cons, elim_set _ fun n => { entryPoints := n },
      List.foldl_cons, elim_set _ fun n => { entryPoints := _, nodes := n },
      List.foldl_cons, elim_set _ fun n => { entryPoints := _, nodes := _, depth := n },
      List.foldl_cons, elim_set _ fun n => { entryPoints := _, nodes := _, depth := _, calls := n },
      List.foldl_cons, elim_set _ fun n =>
        { entryPoints := _, nodes := _, depth := _, calls := _, perClass := n }]
    rfl
  rw [ofEnvironment, readNumbers_eq environment h, hnumbers]
  rfl

end Layer

end CallChart
