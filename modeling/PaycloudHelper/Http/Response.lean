import Mathlib

/-!
# Requests and responses

Headers are a list of lowercase names with the bytes of their values. `V` are the JSON
values. A request's body is what reading it to the end yields.
-/

namespace PaycloudHelper.Http

/-! ## Headers -/

abbrev HeaderMap := List (String × List UInt8)

def HeaderMap.get (headers : HeaderMap) (name : String) : Option (List UInt8) :=
  headers.lookup name

def HeaderMap.insert (headers : HeaderMap) (name : String) (value : List UInt8) : HeaderMap :=
  (name, value) :: headers.filter fun header => header.1 ≠ name

theorem HeaderMap.get_insert_of_ne (headers : HeaderMap) {name other : String} (h : other ≠ name)
    (value : List UInt8) : (headers.insert name value).get other = headers.get other := by
  have hfilter : ∀ hs : HeaderMap,
      (hs.filter fun header => header.1 ≠ name).lookup other = hs.lookup other := by
    intro hs
    induction hs with
    | nil => rfl
    | cons header hs ih =>
      obtain ⟨n, v⟩ := header
      by_cases hn : n = name
      · have hno : (other == n) = false := by simpa [hn] using h
        simpa [hn, List.lookup_cons, hno, beq_eq_false_iff_ne.mpr h] using ih
      · simp only [List.filter_cons, hn, ne_eq, not_false_eq_true, decide_true, if_true,
          List.lookup_cons]
        cases other == n
        · exact ih
        · rfl
  have hne : (other == name) = false := beq_eq_false_iff_ne.mpr h
  simp only [HeaderMap.get, HeaderMap.insert, List.lookup_cons, hne]
  exact hfilter headers

/-- Visible ASCII or a tab. -/
def visible (n : ℕ) : Bool := (32 ≤ n && n < 127) || n == 9

def toStr (value : List UInt8) : Option String :=
  if value.all fun b => visible b.toNat then
    some (String.ofList (value.map fun b => Char.ofNat b.toNat))
  else none

def ascii (text : String) : List UInt8 := text.toList.map fun c => UInt8.ofNat c.toNat

def fromStr (text : String) : Option (List UInt8) :=
  if text.toList.all fun c => visible c.toNat then some (ascii text) else none

abbrev Body := Except String (List UInt8)

structure Request where
  headers : HeaderMap
  body : Body

def toBytes (body : Body) (limit : ℕ) : Except String (List UInt8) :=
  match body with
  | .error err => .error err
  | .ok bytes => if limit < bytes.length then .error "length limit exceeded" else .ok bytes

/-! ## The response envelope -/

structure ResponseApi (V : Type) where
  code : ℕ
  status : String
  message : String
  internalCode : String
  data : Option V
deriving DecidableEq, Repr

inductive Content (V : Type)
  | json (api : ResponseApi V)
  | bytes (bytes : List UInt8)
deriving DecidableEq, Repr

structure Response (V : Type) where
  status : ℕ
  headers : HeaderMap
  body : Content V
deriving DecidableEq, Repr

section
variable {V : Type}

def ResponseApi.plain (code : ℕ) (status message internalCode : String) : ResponseApi V :=
  ⟨code, status, message, internalCode, none⟩

def accepted : ResponseApi V := .plain 202 "accepted" "your request in process" ""

def badRequest (msg internal : String) : ResponseApi V := .plain 400 "bad request" msg internal

def unauthorized (msg : String) : ResponseApi V := .plain 401 "unauthorized" msg ""

def internalError (msg : String) : ResponseApi V := .plain 500 "internal server error" msg ""

/-- A code that is no HTTP status is sent as 500. -/
def ResponseApi.intoResponse (api : ResponseApi V) : Response V where
  status := if 100 ≤ api.code ∧ api.code < 1000 then api.code else 500
  headers := [("content-type", ascii "application/json")]
  body := .json api

/-! ## Request ids -/

def hexDigit (n : ℕ) : Char := if n < 10 then Char.ofNat (48 + n) else Char.ofNat (87 + n)

def hexEncode (bytes : List UInt8) : String :=
  String.ofList (bytes.flatMap fun b => [hexDigit (b.toNat / 16), hexDigit (b.toNat % 16)])

def getOrGenerateRequestId (header : Option String) (random : List UInt8) : String :=
  match header with
  | some v => if v ≠ "" then v else hexEncode random
  | none => hexEncode random

end

end PaycloudHelper.Http
