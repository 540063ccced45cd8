import Mathlib
import PaycloudHelper.Library.ParseInt
import PaycloudHelper.Library.Results
import PaycloudHelper.Library.Splitting
import PaycloudHelper.Grpc.Config
import PaycloudHelper.Grpc.Discovery

/-!
# Discovery-aware channels

The two start-ups of a refresher: `connect_discovered_with` resolves the host before it
returns and inserts what it found, `connect_discovered_lazy_with` inserts the host name
itself and leaves the first lookup to the refresher. Name lookups, built endpoints and
the probe connection are parameters; waiting between attempts is left out.
-/

namespace PaycloudHelper.Discovery

open ChangeLogs ParseInt Results

def discoveryBuffer : ℕ := 1024

def withContext {α : Type} (context : String) : Except Error α → Except Error α
  | .ok a => .ok a
  | .error err => .error (context :: err)

/-! ## Targets -/

def DialConfig.poolSizeFor (config : DialConfig) (targetEnv : String) : ℕ :=
  let size :=
    if targetEnv = "TRANSACTION_GRPC" then config.transactionMaxPool
    else if targetEnv = "MERCHANT_GRPC" then config.merchantMaxPool
    else if targetEnv = "CONFIG_GRPC" then config.configMaxPool
    else defaultMaxPool
  max size 1

def dialTarget (name : String) (port : ℕ) : String := name ++ ":" ++ toString port

def rsplitOnce (text : String) (c : Char) : Option (String × String) :=
  (Splitting.rsplitOnce c text.toList).map (Prod.map String.ofList String.ofList)

def parseHostPort (endpoint : String) : Except Error (String × ℕ) :=
  match rsplitOnce endpoint ':' with
  | none => .error [s!"missing `:port` in endpoint `{endpoint}`"]
  | some (host, port) =>
    if host = "" then .error [s!"empty host in endpoint `{endpoint}`"]
    else
      match parseUnsigned 16 port.toList with
      | .ok number => .ok (host, number)
      | .error err => .error [s!"invalid port `{port}` in endpoint `{endpoint}`", err.text]

def DialConfig.resolveTarget (config : DialConfig) (env : String → Except String String)
    (targetEnv : String) : Except Error (String × ℕ) :=
  match env targetEnv with
  | .error err => .error [s!"gRPC target env `{targetEnv}` is not set", err]
  | .ok raw => do
    let (host, port) ← withContext s!"gRPC target `{targetEnv}`=`{raw}` is not host:port"
      (parseHostPort raw)
    return (dialTarget host port, config.poolSizeFor targetEnv)

def DialConfig.discoveryTarget (config : DialConfig) (env : String → Except String String)
    (targetEnv : String) (refresh : ℕ) : Except Error (String × ℕ × ℕ) :=
  if refresh = 0 then .error ["DNS discovery needs a non-zero refresh interval"]
  else do
    let (target, pool) ← config.resolveTarget env targetEnv
    let (host, port) ← parseHostPort target
    if discoveryBuffer < pool then
      .error [s!"pool size {pool} exceeds the discovery buffer ({discoveryBuffer})"]
    else return (host, port, pool)

/-! ## Attempts -/

def attempts {α : Type} (exhausted : String) (run : ℕ → Except Error α) :
    (left attempt : ℕ) → (last : Error) → Except Error α
  | 0, _, last => .error (exhausted :: last)
  | left + 1, attempt, _ =>
    match run attempt with
    | .ok a => .ok a
    | .error err => attempts exhausted run left (attempt + 1) err

section
variable {A ε : Type}

def DialConfig.initialLookup [DecidableEq A] (config : DialConfig)
    (lookup : ℕ → Except String (Finset A)) (host : String) : Except Error (Finset A) :=
  attempts "gRPC discovery: initial resolution exhausted retries"
    (fun attempt =>
      match lookup attempt with
      | .ok addrs => if addrs ≠ ∅ then .ok addrs else .error [s!"`{host}` resolved to no addresses"]
      | .error err => .error [s!"resolve `{host}`", err])
    (max config.maxRetries 1) 1 [s!"no addresses for `{host}`"]

def DialConfig.prewarm (config : DialConfig) (connect : ℕ → Except String Unit) :
    Except Error Unit :=
  attempts "gRPC prewarm exhausted retries" (fun attempt => (connect attempt).mapError ([·]))
    (max config.maxRetries 1) 1 ["prewarm failed"]

/-! ## Start-ups -/

def trySendAll (refused : String) : Sender A ε → Changes A ε → Except Error (Sender A ε)
  | tx, [] => .ok tx
  | tx, change :: changes =>
    match tx.trySend change with
    | .ok tx => trySendAll refused tx changes
    | .error _ => .error [refused]

def insertInitial (build : A → Except Error ε) (pool : ℕ) :
    Sender A ε → List A → Except Error (Sender A ε)
  | tx, [] => .ok tx
  | tx, addr :: addrs => do
    let endpoint ← build addr
    let tx ← trySendAll "gRPC balancer rejected an initial endpoint" tx
      (inserts (addrKeys addr pool) endpoint)
    insertInitial build pool tx addrs

structure Surroundings (A ε : Type) where
  env : String → Except String String
  lookup : String → ℕ → ℕ → Except String (Finset A)
  buildEndpoint : String → Except Error ε
  discoveryBuilder : String → ℕ → A → Except Error ε
  connect : ε → ℕ → Except String Unit
  drains : List Drain

def connectDiscoveredWith [LinearOrder A] (config : DialConfig) (out : Surroundings A ε)
    (targetEnv : String) (refresh : ℕ) : Except Error (Loop A ε) := do
  let (host, port, pool) ← config.discoveryTarget out.env targetEnv refresh
  let initial ← config.initialLookup (out.lookup host port) host
  let build := out.discoveryBuilder host port
  match initial.sort with
  | [] => .error ["initial_lookup is non-empty"]
  | first :: _ =>
    let endpoint ← build first
    config.prewarm (out.connect endpoint)
    if discoveryBuffer < initial.card * pool then
      .error [s!"{initial.card} addresses x pool {pool} exceeds the discovery buffer ({discoveryBuffer})"]
    else
      let tx ← insertInitial build pool (.channel discoveryBuffer out.drains) initial.sort
      return Refresher.run ⟨pool, 0, initial, tx⟩ refresh false

def connectDiscoveredLazyWith (config : DialConfig) (out : Surroundings A ε)
    (targetEnv : String) (refresh : ℕ) : Except Error (Loop A ε) := do
  let (host, port, pool) ← config.discoveryTarget out.env targetEnv refresh
  let seed ← out.buildEndpoint (dialTarget host port)
  let tx ← trySendAll "gRPC balancer rejected the seed endpoint"
    (.channel discoveryBuffer out.drains) (inserts (seedKeys pool) seed)
  return Refresher.run ⟨pool, pool, ∅, tx⟩ refresh true

/-! ## What a start-up that succeeds leaves -/

theorem trySend_sent {tx tx' : Sender A ε} {change : Change (EndpointKey A) ε}
    (h : tx.trySend change = .ok tx') : tx'.sent = tx.sent ++ [change] := by
  unfold Sender.trySend at h
  dsimp only at h
  split at h
  · injection h with h
    rw [← h]
    simp [Sender.push]
  · cases h

theorem trySendAll_sent {refused : String} {tx tx' : Sender A ε} {changes : Changes A ε}
    (h : trySendAll refused tx changes = .ok tx') : tx'.sent = tx.sent ++ changes := by
  induction changes generalizing tx with
  | nil =>
    injection h with h
    simp [← h]
  | cons change changes ih =>
    unfold trySendAll at h
    split at h
    · rename_i tx₁ hsend
      rw [ih h, trySend_sent hsend, List.append_assoc, List.singleton_append]
    · cases h

theorem attempts_ok {α : Type} {exhausted : String} {run : ℕ → Except Error α}
    {left attempt : ℕ} {last : Error} {a : α}
    (h : attempts exhausted run left attempt last = .ok a) : ∃ n, run n = .ok a := by
  induction left generalizing attempt last with
  | zero => cases h
  | succ left ih =>
    unfold attempts at h
    split at h
    · rename_i b hb
      injection h with h
      exact ⟨attempt, h ▸ hb⟩
    · exact ih h

theorem initialLookup_nonempty [DecidableEq A] {config : DialConfig}
    {lookup : ℕ → Except String (Finset A)} {host : String} {initial : Finset A}
    (h : config.initialLookup lookup host = .ok initial) : initial ≠ ∅ := by
  obtain ⟨n, hn⟩ := attempts_ok h
  split at hn
  · split_ifs at hn with hne
    injection hn with hn
    exact hn ▸ hne
  · cases hn

theorem discoveryTarget_pool {config : DialConfig} {env : String → Except String String}
    {targetEnv : String} {refresh : ℕ} {host : String} {port pool : ℕ}
    (h : config.discoveryTarget env targetEnv refresh = .ok (host, port, pool)) :
    0 < pool ∧ pool ≤ discoveryBuffer := by
  unfold DialConfig.discoveryTarget at h
  split_ifs at h
  obtain ⟨⟨target, size⟩, hresolve, h⟩ := bind_eq_ok.mp h
  obtain ⟨⟨name, number⟩, -, h⟩ := bind_eq_ok.mp h
  dsimp only at h
  split_ifs at h with hbuffer
  obtain rfl : size = pool := by
    injection h with h
    injection h with _ h
    injection h
  unfold DialConfig.resolveTarget at hresolve
  split at hresolve
  · cases hresolve
  · obtain ⟨⟨name', number'⟩, -, hresolve⟩ := bind_eq_ok.mp hresolve
    injection hresolve with hresolve
    injection hresolve with _ hsize
    constructor
    · rw [← hsize]
      exact lt_max_of_lt_right Nat.one_pos
    · exact not_lt.mp hbuffer

theorem connectDiscoveredWith_ok [LinearOrder A] {config : DialConfig} {out : Surroundings A ε}
    {targetEnv : String} {refresh : ℕ} {l : Loop A ε}
    (h : connectDiscoveredWith config out targetEnv refresh = .ok l) :
    ∃ build pool initial tx, (0 < pool ∧ pool ≤ discoveryBuffer) ∧ initial ≠ ∅ ∧
      insertInitial build pool (.channel discoveryBuffer out.drains) initial.sort = .ok tx ∧
      l = Refresher.run ⟨pool, 0, initial, tx⟩ refresh false := by
  unfold connectDiscoveredWith at h
  obtain ⟨⟨host, port, pool⟩, htarget, h⟩ := bind_eq_ok.mp h
  obtain ⟨initial, hinitial, h⟩ := bind_eq_ok.mp h
  dsimp only at h
  split at h
  · cases h
  · obtain ⟨endpoint, -, h⟩ := bind_eq_ok.mp h
    obtain ⟨-, -, h⟩ := bind_eq_ok.mp h
    split_ifs at h
    obtain ⟨tx, htx, h⟩ := bind_eq_ok.mp h
    injection h with h
    exact ⟨_, pool, initial, tx, discoveryTarget_pool htarget, initialLookup_nonempty hinitial,
      htx, h.symm⟩

theorem connectDiscoveredLazyWith_ok {config : DialConfig} {out : Surroundings A ε}
    {targetEnv : String} {refresh : ℕ} {l : Loop A ε}
    (h : connectDiscoveredLazyWith config out targetEnv refresh = .ok l) :
    ∃ seed pool tx, (0 < pool ∧ pool ≤ discoveryBuffer) ∧
      trySendAll "gRPC balancer rejected the seed endpoint" (.channel discoveryBuffer out.drains)
        (inserts (seedKeys pool) seed) = .ok tx ∧
      l = Refresher.run ⟨pool, pool, ∅, tx⟩ refresh true := by
  unfold connectDiscoveredLazyWith at h
  obtain ⟨⟨host, port, pool⟩, htarget, h⟩ := bind_eq_ok.mp h
  dsimp only at h
  obtain ⟨seed, -, h⟩ := bind_eq_ok.mp h
  obtain ⟨tx, htx, h⟩ := bind_eq_ok.mp h
  injection h with h
  exact ⟨seed, pool, tx, discoveryTarget_pool htarget, htx, h.symm⟩

end

end PaycloudHelper.Discovery
