import Mathlib
import PaycloudHelper.Library.Results
import PaycloudHelper.Library.Whitespace

/-!
# Health and readiness of the object store

The facade judges a backend by a code that each adapter fills in on its own. Of the client
interface only the two probes are modelled; `display` is how the HTTP library prints a status.
-/

namespace PaycloudHelper.S3

open Results

def codeOk : ℕ := 0

structure HealthResponse where
  code : ℕ
  message : String
  status : String
deriving DecidableEq, Repr

structure ReadyResponse where
  code : ℕ
  message : String
  status : String
  dependencies : List (String × String)
deriving DecidableEq, Repr

inductive S3MinioError
  | remote (operation message : String)
  | grpc (status : String)
  | http (error : String)
deriving DecidableEq, Repr

/-! ## The facade -/

structure Client where
  health : Except S3MinioError HealthResponse
  ready : Except S3MinioError ReadyResponse

def ensureOk (operation : String) (code : ℕ) (message : String) : Except S3MinioError Unit :=
  if code = codeOk then .ok ()
  else .error (.remote operation (if message = "" then s!"{operation} failed" else message))

structure S3Minio where
  client : Client

def S3Minio.health (store : S3Minio) : Except S3MinioError HealthResponse := do
  let response ← store.client.health
  ensureOk "health" response.code response.message
  return response

def S3Minio.ready (store : S3Minio) : Except S3MinioError ReadyResponse := do
  let response ← store.client.ready
  ensureOk "ready" response.code response.message
  return response

/-! ## Over gRPC -/

def eqIgnoreAsciiCase (a b : List Char) : Bool := a.map Char.toLower == b.map Char.toLower

def GrpcClient.health (answer : Except String String) : Except S3MinioError HealthResponse :=
  match answer with
  | .error status => .error (.grpc status)
  | .ok raw =>
    let trimmed := Whitespace.trim raw
    let status := if eqIgnoreAsciiCase trimmed "ok".toList then "ok" else String.ofList trimmed
    .ok ⟨if status = "ok" then codeOk else 503, "grpc health", status⟩

def GrpcClient.ready (answer : Except String String) : Except S3MinioError ReadyResponse :=
  match GrpcClient.health answer with
  | .error err => .error err
  | .ok health =>
    let status := if health.status = "" then "unavailable" else health.status
    .ok ⟨health.code, "grpc readiness", status, [("grpc", status)]⟩

/-! ## Over HTTP -/

structure StatusCode where
  code : ℕ
  lo : 100 ≤ code
  hi : code < 1000
deriving DecidableEq, Repr

def StatusCode.isSuccess (status : StatusCode) : Bool := 200 ≤ status.code && status.code < 300

/-- `answer` is the status of `/healthz`, or why there is none. -/
def HttpClient.health (display : StatusCode → String) (answer : Except String StatusCode) :
    Except S3MinioError HealthResponse :=
  match answer with
  | .error err => .error (.http err)
  | .ok status =>
    if status.isSuccess = false then .error (.remote "health" (display status))
    else .ok ⟨codeOk, "http health", "ok"⟩

def HttpClient.ready (answer : Except String StatusCode) : Except S3MinioError ReadyResponse :=
  match answer with
  | .error err => .error (.http err)
  | .ok statusCode =>
    let status := if statusCode.isSuccess then "ok" else "unavailable"
    .ok ⟨statusCode.code, "http ready", status, [("http", status)]⟩

/-! ## What the backend says -/

inductive Backend
  | http (healthz readyz : Except String StatusCode)
  | grpc (health : Except String String)

def Backend.store (display : StatusCode → String) : Backend → S3Minio
  | .http healthz readyz => ⟨⟨HttpClient.health display healthz, HttpClient.ready readyz⟩⟩
  | .grpc health => ⟨⟨GrpcClient.health health, GrpcClient.ready health⟩⟩

/-- The text is `ok`, but for the case of its letters and white space around it. -/
def SaysOk (raw : String) : Prop :=
  ∃ pre word post, raw.toList = pre ++ word ++ post ∧
    (∀ c ∈ pre, Whitespace.isWhitespace c = true) ∧
    (∀ c ∈ post, Whitespace.isWhitespace c = true) ∧ word.map Char.toLower = "ok".toList

def Succeeds : Except String StatusCode → Prop
  | .ok status => status.isSuccess = true
  | .error _ => False

def Backend.Healthy : Backend → Prop
  | .http healthz _ => Succeeds healthz
  | .grpc (.ok raw) => SaysOk raw
  | .grpc (.error _) => False

def Backend.Ready : Backend → Prop
  | .http _ readyz => Succeeds readyz
  | .grpc (.ok raw) => SaysOk raw
  | .grpc (.error _) => False

def TransportNeutral (display : StatusCode → String) (backend : Backend) : Prop :=
  ((∃ response, (backend.store display).health = .ok response) ↔ backend.Healthy) ∧
    ((∃ response, (backend.store display).ready = .ok response) ↔ backend.Ready)

def Backend.HttpReady : Backend → Prop
  | .http _ readyz => Succeeds readyz
  | .grpc _ => False

/-! ## The facade's verdict -/

theorem ensureOk_eq_ok {operation message : String} {code : ℕ} {u : Unit} :
    ensureOk operation code message = .ok u ↔ code = codeOk := by
  unfold ensureOk
  split_ifs with hcode <;> simp [hcode]

theorem checked_ok_iff {ρ : Type} {call : Except S3MinioError ρ} {operation : String}
    {code : ρ → ℕ} {message : ρ → String} :
    (∃ response, (do
        let response ← call
        ensureOk operation (code response) (message response)
        return response) = .ok response) ↔
      ∃ response, call = .ok response ∧ code response = codeOk := by
  simp only [bind_eq_ok, ensureOk_eq_ok, pure, Except.pure, Except.ok.injEq]
  constructor
  · rintro ⟨_, response, hcall, _, hcode, -⟩
    exact ⟨response, hcall, hcode⟩
  · rintro ⟨response, hcall, hcode⟩
    exact ⟨response, response, hcall, (), hcode, rfl⟩

theorem health_ok_iff {store : S3Minio} :
    (∃ response, store.health = .ok response) ↔
      ∃ response, store.client.health = .ok response ∧ response.code = codeOk :=
  checked_ok_iff

theorem ready_ok_iff {store : S3Minio} :
    (∃ response, store.ready = .ok response) ↔
      ∃ response, store.client.ready = .ok response ∧ response.code = codeOk :=
  checked_ok_iff

theorem ok_toList : "ok".toList = ['o', 'k'] := by simp

theorem saysOk_iff {raw : String} :
    SaysOk raw ↔ eqIgnoreAsciiCase (Whitespace.trim raw) "ok".toList = true := by
  have hlower : "ok".toList.map Char.toLower = "ok".toList := by
    rw [ok_toList]
    decide
  unfold eqIgnoreAsciiCase
  rw [hlower, beq_iff_eq]
  constructor
  · rintro ⟨pre, word, post, htext, hpre, hpost, hword⟩
    have hletters : ∀ d ∈ "ok".toList, Whitespace.isWhitespace d = false := by
      simp [Whitespace.isWhitespace]
    have hnone : ∀ c ∈ word, Whitespace.isWhitespace c = false := by
      intro c hc
      by_contra hwhite
      have hwhite : Whitespace.isWhitespace c = true := Bool.eq_true_of_not_eq_false hwhite
      have hmem : c.toLower ∈ "ok".toList := hword ▸ List.mem_map_of_mem hc
      rw [Whitespace.toLower_of_isWhitespace hwhite] at hmem
      exact Bool.false_ne_true ((hletters c hmem).symm.trans hwhite)
    rw [Whitespace.trim_eq_of_append htext hpre hpost hnone, hword]
  · intro hword
    obtain ⟨pre, post, htext, hpre, hpost⟩ := Whitespace.trim_spec raw
    exact ⟨pre, Whitespace.trim raw, post, htext, hpre, hpost, hword⟩

theorem grpc_code_iff {raw : String} {response : HealthResponse}
    (h : GrpcClient.health (.ok raw) = .ok response) : response.code = codeOk ↔ SaysOk raw := by
  obtain rfl := Except.ok.inj h
  dsimp only
  rw [saysOk_iff]
  cases hok : eqIgnoreAsciiCase (Whitespace.trim raw) "ok".toList with
  | true => simp
  | false =>
    have hne : String.ofList (Whitespace.trim raw) ≠ "ok" := by
      intro heq
      have hlist : Whitespace.trim raw = "ok".toList := by rw [← heq, String.toList_ofList]
      rw [hlist, eqIgnoreAsciiCase, beq_self_eq_true] at hok
      cases hok
    simp [hne, codeOk]

/-! ## The adapters -/

theorem grpc_neutral (display : StatusCode → String) (answer : Except String String) :
    TransportNeutral display (.grpc answer) := by
  unfold TransportNeutral
  rw [health_ok_iff, ready_ok_iff]
  cases answer with
  | error status => simp [Backend.store, GrpcClient.health, GrpcClient.ready, Backend.Healthy,
      Backend.Ready]
  | ok raw =>
    have hcode : ∀ response, GrpcClient.health (.ok raw) = .ok response →
        (response.code = codeOk ↔ SaysOk raw) := fun _ => grpc_code_iff
    obtain ⟨response, hresponse⟩ : ∃ response, GrpcClient.health (.ok raw) = .ok response :=
      ⟨_, rfl⟩
    have hready := hcode response hresponse
    simp [Backend.store, GrpcClient.ready, hresponse, Backend.Healthy, Backend.Ready, hready]

theorem http_health_iff {display : StatusCode → String} {healthz : Except String StatusCode} :
    (∃ response, HttpClient.health display healthz = .ok response ∧ response.code = codeOk) ↔
      Succeeds healthz := by
  cases healthz with
  | error err => simp [HttpClient.health, Succeeds]
  | ok status => cases hsuccess : status.isSuccess <;> simp [HttpClient.health, Succeeds, hsuccess]

theorem http_ready_never {readyz : Except String StatusCode} :
    ¬ ∃ response, HttpClient.ready readyz = .ok response ∧ response.code = codeOk := by
  cases readyz with
  | error err => simp [HttpClient.ready]
  | ok status =>
    have hne : status.code ≠ codeOk := by
      have hlo := status.lo
      unfold codeOk
      omega
    simp [HttpClient.ready, hne]

/-- The facade passes on what the backend says if and only if that is not a success of
`/readyz`. -/
theorem transport_neutral_iff (display : StatusCode → String) (backend : Backend) :
    TransportNeutral display backend ↔ ¬ backend.HttpReady := by
  cases backend with
  | grpc answer => exact iff_of_true (grpc_neutral display answer) not_false
  | http healthz readyz =>
    unfold TransportNeutral
    rw [health_ok_iff, ready_ok_iff]
    have hhealth : (∃ response, HttpClient.health display healthz = .ok response ∧
        response.code = codeOk) ↔ Succeeds healthz := http_health_iff
    have hready : ¬ ∃ response, HttpClient.ready readyz = .ok response ∧ response.code = codeOk :=
      http_ready_never
    exact (and_iff_right hhealth).trans ((iff_false_left hready).trans Iff.rfl)

def up : Backend := .http (.ok ⟨200, by decide, by decide⟩) (.ok ⟨200, by decide, by decide⟩)

theorem ready_fails_over_http : up.Ready ∧
    (up.store fun _ => "").ready = .error (.remote "ready" "http ready") :=
  ⟨rfl, rfl⟩

end PaycloudHelper.S3
