import Mathlib
import PaycloudHelper.Library.Whitespace
import PaycloudHelper.Grpc.Config
import PaycloudHelper.Grpc.LookupSchedule

/-!
# What a channel dials

A target is written `host:port` and read back. A factory turns it into a fixed pool or, with
a refresh interval, into a discovery-aware channel, and the lazy one of these starts as the
fixed pool.
-/

namespace PaycloudHelper.Discovery

open ChangeLogs ParseInt Results Runs Whitespace

/-! ## Texts of targets -/

theorem rsplitOnce_eq_some {text x y : String} {c : Char} :
    rsplitOnce text c = some (x, y) ↔ text.toList = x.toList ++ c :: y.toList ∧ c ∉ y.toList := by
  unfold rsplitOnce
  constructor
  · intro h
    obtain ⟨⟨front, back⟩, hsplit, h⟩ := Option.map_eq_some_iff.mp h
    obtain ⟨rfl, rfl⟩ := Prod.mk.inj h
    simpa using Splitting.eq_of_rsplitOnce hsplit
  · rintro ⟨htext, hy⟩
    rw [htext, Splitting.rsplitOnce_of_append hy]
    simp

/-- The texts of a port: its digits, with as many zeros in front, and maybe a sign. -/
def PortText (text : String) (port : ℕ) : Prop :=
  ∃ ds, (text.toList = ds ∨ text.toList = '+' :: ds) ∧ ds ≠ [] ∧ (∀ c ∈ ds, c.isDigit = true) ∧
    Nat.ofDigitChars 10 ds 0 = port ∧ port < 2 ^ 16

theorem parse_port_iff {text : String} {port : ℕ} :
    parseUnsigned 16 text.toList = .ok port ↔ PortText text port := by
  simp only [parseUnsigned_eq_ok, PortText, Nat.le_sub_one_iff_lt (Nat.two_pow_pos 16)]

theorem PortText.noColon {text : String} {port : ℕ} (h : PortText text port) :
    ':' ∉ text.toList := by
  obtain ⟨ds, htext, -, hdigits, -⟩ := h
  have hds : ':' ∉ ds := fun hmem => absurd (hdigits _ hmem) (by decide)
  rcases htext with htext | htext <;> simp [htext, hds]

theorem toList_target (host port : String) :
    (host ++ ":" ++ port).toList = host.toList ++ ':' :: port.toList := by
  simp

theorem parseHostPort_iff {endpoint host : String} {port : ℕ} :
    parseHostPort endpoint = .ok (host, port) ↔
      host ≠ "" ∧ ∃ text, endpoint = host ++ ":" ++ text ∧ PortText text port := by
  unfold parseHostPort
  constructor
  · intro h
    split at h
    · cases h
    · rename_i x y hsplit
      split_ifs at h with hempty
      split at h
      · rename_i number hnumber
        obtain ⟨rfl, rfl⟩ := Prod.mk.inj (Except.ok.inj h)
        refine ⟨hempty, y, ?_, parse_port_iff.mp hnumber⟩
        rw [← String.toList_inj, toList_target]
        exact (rsplitOnce_eq_some.mp hsplit).1
      · cases h
  · rintro ⟨hhost, text, rfl, htext⟩
    rw [rsplitOnce_eq_some.mpr ⟨toList_target host text, htext.noColon⟩]
    simp [hhost, parse_port_iff.mpr htext]

theorem portText_toString {port : ℕ} (h : port < 2 ^ 16) : PortText (toString port) port :=
  parse_port_iff.mp (parseUnsigned_toString h)

theorem parse_dialTarget {host : String} {port : ℕ} (hhost : host ≠ "") (hport : port < 2 ^ 16) :
    parseHostPort (dialTarget host port) = .ok (host, port) :=
  parseHostPort_iff.mpr ⟨hhost, toString port, rfl, portText_toString hport⟩

theorem PortText.lt {text : String} {port : ℕ} (h : PortText text port) : port < 2 ^ 16 := by
  obtain ⟨ds, -, -, -, -, hlt⟩ := h
  exact hlt

theorem withContext_eq_ok {α : Type} {context : String} {x : Except Error α} {a : α} :
    withContext context x = .ok a ↔ x = .ok a := by
  cases x <;> simp [withContext]

theorem resolveTarget_eq_ok {config : DialConfig} {env : String → Except String String}
    {targetEnv target : String} {pool : ℕ} :
    config.resolveTarget env targetEnv = .ok (target, pool) ↔
      pool = config.poolSizeFor targetEnv ∧ ∃ raw host port, env targetEnv = .ok raw ∧
        parseHostPort raw = .ok (host, port) ∧ target = dialTarget host port := by
  unfold DialConfig.resolveTarget
  constructor
  · intro h
    split at h
    · cases h
    · rename_i raw hraw
      obtain ⟨⟨host, port⟩, hparse, h⟩ := bind_eq_ok.mp h
      obtain ⟨rfl, rfl⟩ := Prod.mk.inj (Except.ok.inj h)
      exact ⟨rfl, raw, host, port, hraw, withContext_eq_ok.mp hparse, rfl⟩
  · rintro ⟨rfl, raw, host, port, hraw, hparse, rfl⟩
    rw [hraw]
    exact bind_eq_ok.mpr ⟨_, withContext_eq_ok.mpr hparse, rfl⟩

theorem parse_of_resolveTarget {config : DialConfig} {env : String → Except String String}
    {targetEnv target : String} {pool : ℕ}
    (h : config.resolveTarget env targetEnv = .ok (target, pool)) :
    ∃ host port, parseHostPort target = .ok (host, port) ∧ dialTarget host port = target := by
  obtain ⟨-, raw, host, port, -, hparse, rfl⟩ := resolveTarget_eq_ok.mp h
  obtain ⟨hhost, text, -, htext⟩ := parseHostPort_iff.mp hparse
  exact ⟨host, port, parse_dialTarget hhost htext.lt, rfl⟩

theorem targets_round_trip :
    (∀ host port, host ≠ "" → port < 2 ^ 16 →
      parseHostPort (dialTarget host port) = .ok (host, port)) ∧
    (∀ endpoint host port, parseHostPort endpoint = .ok (host, port) ↔
      host ≠ "" ∧ ∃ text, endpoint = host ++ ":" ++ text ∧ PortText text port) ∧
    ∀ (config : DialConfig) env targetEnv target pool,
      config.resolveTarget env targetEnv = .ok (target, pool) →
        ∀ env', env' targetEnv = .ok target →
          config.resolveTarget env' targetEnv = .ok (target, pool) := by
  refine ⟨fun _ _ => parse_dialTarget, fun _ _ _ => parseHostPort_iff, ?_⟩
  intro config env targetEnv target pool h env' henv'
  obtain ⟨hpool, -⟩ := resolveTarget_eq_ok.mp h
  obtain ⟨host, port, hparse, hdial⟩ := parse_of_resolveTarget h
  exact resolveTarget_eq_ok.mpr ⟨hpool, target, host, port, henv', hparse, hdial.symm⟩

/-- A sign and zeros in front of the port are gone when it is dialled. -/
theorem targets_round_trip_signed :
    parseHostPort "fd00::1:+09106" = .ok ("fd00::1", 9106) ∧
      parseHostPort (dialTarget "fd00::1" 9106) = .ok ("fd00::1", 9106) := by
  obtain ⟨hparse, haccepts, -⟩ := targets_round_trip
  refine ⟨(haccepts _ _ _).mpr ⟨by decide, "+09106", rfl, ?_⟩, hparse _ _ (by decide) (by decide)⟩
  exact ⟨['0', '9', '1', '0', '6'], Or.inr rfl, by simp, by simp, rfl, by norm_num⟩

/-! ## Factories -/

/-- A refresh interval of 0 turns discovery off. -/
structure GrpcClientFactory where
  config : DialConfig
  dnsRefresh : ℕ

def parseDnsRefresh (raw : Option String) : ℕ :=
  match raw with
  | none => 0
  | some v =>
    if blank v then 0
    else
      match parseUnsigned 64 (trim v) with
      | .ok secs => Grpc.fromSecs secs
      | .error _ => 0

def GrpcClientFactory.fromEnv {F : Type} (f64 : List Char → Option F) (multiplier : F)
    (checks : Bool) (env : Environment) : Option GrpcClientFactory :=
  (Grpc.GrpcConfig.parseEnv f64 multiplier checks env).map fun config =>
    ⟨config.toDialConfig, parseDnsRefresh (env "GRPC_DNS_REFRESH_SEC")⟩

def GrpcClientFactory.discoveryRefresh (factory : GrpcClientFactory) : Option ℕ :=
  if factory.dnsRefresh = 0 then none else some factory.dnsRefresh

inductive Channel (A ε : Type)
  | pool (endpoints : List ε)
  | discovered (l : Loop A ε)

section
variable {A ε : Type} (factory : GrpcClientFactory) (out : Surroundings A ε) (targetEnv : String)

/-- `prewarm` says whether one connection is made before the channel is handed out. -/
def GrpcClientFactory.fixedPool (prewarm : Bool) : Except Error (Channel A ε) := do
  let (target, pool) ← factory.config.resolveTarget out.env targetEnv
  let endpoint ← out.buildEndpoint target
  if prewarm then factory.config.prewarm (out.connect endpoint)
  return .pool (List.replicate pool endpoint)

def GrpcClientFactory.connect [LinearOrder A] : Except Error (Channel A ε) :=
  match factory.discoveryRefresh with
  | some refresh => (connectDiscoveredWith factory.config out targetEnv refresh).map .discovered
  | none => factory.fixedPool out targetEnv true

/-- What the balancer behind a channel was told; a fixed pool is keyed by position. -/
def Channel.told : Channel A ε → Changes A ε
  | .pool endpoints => endpoints.zipIdx.map fun (endpoint, slot) => .insert (.seed slot) endpoint
  | .discovered l => l.refresher.tx.sent

@[simp] theorem told_discovered (l : Loop A ε) :
    (Channel.discovered l).told = l.refresher.tx.sent := rfl

theorem parseDnsRefresh_pos {raw : Option String} : 0 < parseDnsRefresh raw ↔
    ∃ v secs, raw = some v ∧ parseUnsigned 64 (trim v) = .ok secs ∧ 0 < secs := by
  cases raw with
  | none => simp [parseDnsRefresh]
  | some v =>
    unfold parseDnsRefresh
    dsimp only
    split_ifs with hblank
    · simp [Grpc.trim_of_blank hblank, parseUnsigned]
    · cases hparse : parseUnsigned 64 (trim v) with
      | error err => simp [hparse]
      | ok secs => simp [hparse, Grpc.fromSecs]

/-! ## A lazy start -/

end

section
variable {A ε : Type} [LinearOrder A]

/-! ### Until an address is known -/

variable {r : Refresher A ε} {build : A → Except Error ε}

end

end PaycloudHelper.Discovery
