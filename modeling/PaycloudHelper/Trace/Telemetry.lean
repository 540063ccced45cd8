import Mathlib
import PaycloudHelper.Auth.Revocation
import PaycloudHelper.Library.Runs
import PaycloudHelper.Library.Slots

/-!
# The telemetry guard

Every guard that `init` returns writes one shared flag. How the exporters are built and
how the providers shut down is told by the events; what no step reads of a provider is
left out. Durations are in nanoseconds.
-/

namespace PaycloudHelper.Trace

open Auth (F64)
open Runs Slots

structure Config where
  enabled : Bool
  serviceName : String
  environment : String
  endpoint : String
  samplingRatio : F64
  dialTimeout : ℕ
  batchTimeout : ℕ
  batchMaxExportSize : ℕ
  metricExportInterval : ℕ

def Config.withDefaults (cfg : Config) : Config :=
  { cfg with
    dialTimeout := if cfg.dialTimeout = 0 then 5000000000 else cfg.dialTimeout
    batchTimeout := if cfg.batchTimeout = 0 then 5000000000 else cfg.batchTimeout
    batchMaxExportSize := if cfg.batchMaxExportSize = 0 then 512 else cfg.batchMaxExportSize
    metricExportInterval :=
      if cfg.metricExportInterval = 0 then 15000000000 else cfg.metricExportInterval
    samplingRatio := if cfg.samplingRatio = .finite 0 then .finite 1 else cfg.samplingRatio
    environment := if cfg.environment = "" then "dev" else cfg.environment }

def isRatio : F64 → Bool
  | .finite value => 0 ≤ value && value ≤ 1
  | .infinite _ | .nan => false

/-- `display` is how the standard library prints a double. -/
def ensureRequired (display : F64 → String) (cfg : Config) : Except String Unit :=
  if cfg.serviceName = "" then
    .error "pc-trace: service_name must not be empty (set OTEL_SERVICE_NAME)"
  else if cfg.endpoint = "" then
    .error "pc-trace: endpoint must not be empty (set OTEL_EXPORTER_OTLP_ENDPOINT)"
  else if isRatio cfg.samplingRatio = false then
    .error s!"pc-trace: sampling_ratio must be in [0,1], got {display cfg.samplingRatio}"
  else if cfg.dialTimeout = 0 then .error "pc-trace: dial_timeout must be > 0"
  else .ok ()

/-- The defaults pass their own check: no configuration fails for its dial timeout. -/
theorem withDefaults_dialTimeout_pos (cfg : Config) : 0 < cfg.withDefaults.dialTimeout := by
  unfold Config.withDefaults
  dsimp only
  split_ifs with h
  · decide
  · exact Nat.pos_of_ne_zero h

/-! ## Guards -/

structure TraceGuard where
  tracer : Bool
  meter : Bool
deriving DecidableEq, Repr

def TraceGuard.disabled : TraceGuard := ⟨false, false⟩

def buildPipeline (span metric : Except String Unit) : Except String TraceGuard :=
  match span with
  | .error err => .error s!"pc-trace: build span exporter: {err}"
  | .ok () =>
    match metric with
    | .error err => .error s!"pc-trace: build metric exporter: {err}"
    | .ok () => .ok ⟨true, true⟩

def init (display : F64 → String) (flag : Bool) (cfg : Config) (span metric : Except String Unit) :
    Except String TraceGuard × Bool :=
  let cfg := cfg.withDefaults
  if cfg.enabled = false then (.ok .disabled, flag)
  else
    match ensureRequired display cfg with
    | .error err => (.error err, flag)
    | .ok () =>
      match buildPipeline span metric with
      | .error err => (.error err, flag)
      | .ok guard => (.ok guard, true)

def shutdownError (held : Bool) (name : String) : Except String Unit → List String
  | .error err => if held then [s!"{name} shutdown: {err}"] else []
  | .ok () => []

/-- `tracer` and `meter` say how the providers shut down, where the guard holds them. -/
def TraceGuard.shutdown (guard : TraceGuard) (tracer meter : Except String Unit) :
    Except String Unit × TraceGuard × Bool :=
  let errs := shutdownError guard.tracer "tracer" tracer ++ shutdownError guard.meter "meter" meter
  (if errs.isEmpty then .ok () else .error ("; ".intercalate errs), ⟨false, false⟩, false)

theorem shutdown_shutdown (guard : TraceGuard) (tracer meter tracer' meter' : Except String Unit) :
    (guard.shutdown tracer meter).2.1.shutdown tracer' meter' =
      (.ok (), (guard.shutdown tracer meter).2) := by
  cases tracer' <;> cases meter' <;> rfl

theorem init_cases (display : F64 → String) (flag : Bool) (cfg : Config)
    (span metric : Except String Unit) :
    (∃ err, init display flag cfg span metric = (.error err, flag)) ∨
      ∃ guard, init display flag cfg span metric = (.ok guard, flag || cfg.enabled) := by
  have henabled : cfg.withDefaults.enabled = cfg.enabled := rfl
  unfold init
  dsimp only
  rw [henabled]
  split_ifs with hcfg
  · exact Or.inr ⟨_, by rw [hcfg, Bool.or_false]⟩
  · rw [Bool.eq_true_of_not_eq_false hcfg, Bool.or_true]
    split
    · exact Or.inl ⟨_, rfl⟩
    · split
      · exact Or.inl ⟨_, rfl⟩
      · exact Or.inr ⟨_, rfl⟩

/-! ## Their lifetimes -/

/-- A guard that was returned, from an enabled configuration or not, and what its owner
has done with it. -/
structure Held where
  guard : TraceGuard
  fromEnabled : Bool
  shut : Bool
  dropped : Bool
deriving DecidableEq, Repr

def Held.live (held : Held) : Bool := held.fromEnabled && !held.shut && !held.dropped

structure World where
  enabled : Bool
  guards : List Held
deriving DecidableEq, Repr

def World.new : World := ⟨false, []⟩

def World.isEnabled (w : World) : Bool := w.enabled

inductive Event
  | init (cfg : Config) (span metric : Except String Unit)
  | shutdown (guard : ℕ) (tracer meter : Except String Unit)
  | drop (guard : ℕ) (tracer meter : Except String Unit)

def World.owned (w : World) (g : ℕ) : Option Held := w.guards[g]?.filter fun held => !held.dropped

def World.put (w : World) (g : ℕ) (held : Held) (flag : Bool) : World :=
  ⟨flag, w.guards.set g held⟩

def step (display : F64 → String) (w : World) : Event → Option World
  | .init cfg span metric =>
    match init display w.enabled cfg span metric with
    | (.ok guard, flag) => some ⟨flag, w.guards ++ [⟨guard, cfg.enabled, false, false⟩]⟩
    | (.error _, flag) => some { w with enabled := flag }
  | .shutdown g tracer meter =>
    (w.owned g).map fun held =>
      let (_, guard, flag) := held.guard.shutdown tracer meter
      w.put g { held with guard := guard, shut := true } flag
  | .drop g tracer meter =>
    (w.owned g).map fun held =>
      let (_, guard, flag) := held.guard.shutdown tracer meter
      w.put g { held with guard := guard, dropped := true } flag

/-! ## When the flag is true -/

def World.Truthful (w : World) : Prop := w.isEnabled = true ↔ ∃ held ∈ w.guards, held.live = true

def TellsTruth (display : F64 → String) (w : World) (e : Event) : Prop :=
  ∀ w' ∈ step display w e, w'.Truthful

/-- A guard is only shut down or dropped while no other guard is live. -/
def NoOtherLive (w : World) : Event → Prop
  | .init .. => True
  | .shutdown g _ _ | .drop g _ _ =>
    (w.owned g).isSome → ∀ (i : ℕ) held, w.guards[i]? = some held → i ≠ g → held.live = false

variable {display : F64 → String} {w w' : World}

theorem truthful_new : World.new.Truthful := by simp [World.Truthful, World.new, World.isEnabled]

theorem truthful_init (hw : w.Truthful) {cfg : Config} {span metric : Except String Unit}
    (h : step display w (.init cfg span metric) = some w') : w'.Truthful := by
  rcases init_cases display w.enabled cfg span metric with ⟨err, heq⟩ | ⟨guard, heq⟩
  · rw [step, heq] at h
    obtain rfl := Option.some.inj h
    exact hw
  · rw [step, heq] at h
    obtain rfl := Option.some.inj h
    -- the guard that is added is live if it comes from an enabled configuration
    have hor : (w.enabled || cfg.enabled) = true ↔ w.isEnabled = true ∨ cfg.enabled = true :=
      Bool.or_eq_true_iff
    simp only [World.Truthful, List.mem_append, List.mem_singleton, or_and_right, exists_or,
      exists_eq_left]
    exact hor.trans (or_congr hw (by simp [Held.live]))

theorem truthful_put {g : ℕ} {held held' : Held} (hg : w.owned g = some held)
    (hover : held'.live = false) :
    (w.put g held' false).Truthful ↔
      ∀ (i : ℕ) x, w.guards[i]? = some x → i ≠ g → x.live = false := by
  have hlt : g < w.guards.length :=
    (List.getElem?_eq_some_iff.mp (Option.filter_eq_some_iff.mp hg).1).1
  have hdead : (w.put g held' false).Truthful ↔
      ∀ x ∈ w.guards.set g held', x.live = false := by
    simp [World.Truthful, World.put, World.isEnabled]
  rw [hdead]
  constructor
  · intro h i x hi hne
    apply h x
    exact List.mem_of_getElem? (i := i) (by rwa [List.getElem?_set_ne (Ne.symm hne)])
  · intro h x hx
    obtain ⟨i, hi⟩ := List.getElem?_of_mem hx
    rcases getElem?_set_cases hi with ⟨-, rfl⟩ | ⟨hne, hi⟩
    · exact hover
    · exact h i x hi hne

theorem tellsTruth_iff (hw : w.Truthful) (e : Event) :
    TellsTruth display w e ↔ NoOtherLive w e := by
  cases e with
  | init cfg span metric => exact iff_of_true (fun w' h => truthful_init hw h) trivial
  | shutdown g tracer meter =>
    cases hg : w.owned g with
    | none => simp [TellsTruth, NoOtherLive, step, hg]
    | some held =>
      simp only [TellsTruth, NoOtherLive, step, hg, Option.map_some, Option.mem_def,
        Option.some.injEq, forall_eq', Option.isSome_some, forall_const]
      exact truthful_put hg (by simp [Held.live])
  | drop g tracer meter =>
    cases hg : w.owned g with
    | none => simp [TellsTruth, NoOtherLive, step, hg]
    | some held =>
      simp only [TellsTruth, NoOtherLive, step, hg, Option.map_some, Option.mem_def,
        Option.some.injEq, forall_eq', Option.isSome_some, forall_const]
      exact truthful_put hg (by simp [Held.live])

/-- In a run the flag tells the truth after every step if and only if no guard is shut
down or dropped while another is live. -/
theorem flag_truthful_iff (display : F64 → String) (es : List Event) :
    AllSteps (step display) (TellsTruth display) .new es ↔
      AllSteps (step display) NoOtherLive .new es := by
  have hstep : ∀ (w : World) e w', w.Truthful → TellsTruth display w e →
      step display w e = some w' → w'.Truthful := fun _ _ w' _ htells h => htells w' h
  constructor <;> intro hall
  · exact allSteps_of_invariant hstep (fun _ e hw => (tellsTruth_iff hw e).mp) truthful_new
      hall hall
  · refine allSteps_of_invariant (P := NoOtherLive) (fun w e w' hw hP h => ?_)
      (fun _ e hw => (tellsTruth_iff hw e).mpr) truthful_new hall hall
    exact hstep w e w' hw ((tellsTruth_iff hw e).mpr hP) h

def exporting : Config :=
  ⟨true, "billing", "", "http://collector:4317", .finite 1, 0, 0, 0, 0⟩

def disabledDrop : List Event :=
  [.init exporting (.ok ()) (.ok ()), .init { exporting with enabled := false } (.ok ()) (.ok ()),
    .drop 1 (.ok ()) (.ok ())]

theorem disabled_drop_clears : ∃ w, run (step fun _ => "") .new disabledDrop = some w ∧
    w.isEnabled = false ∧ (∃ held ∈ w.guards, held.live = true) :=
  ⟨⟨false, [⟨⟨true, true⟩, true, false, false⟩, ⟨⟨false, false⟩, false, false, true⟩]⟩,
    by decide +kernel, rfl, by decide⟩

end PaycloudHelper.Trace
