import Mathlib

/-!
# Compacting JSON

`json_minify` copies the input byte for byte and leaves out the whitespace between
tokens. Whether the input is JSON at all is asked of the parser first.
-/

namespace PaycloudHelper.Json

structure Scan where
  inString : Bool
  escaped : Bool
deriving DecidableEq, Repr

def whitespace (b : UInt8) : Bool := b == 0x20 || b == 0x09 || b == 0x0A || b == 0x0D

def quote : UInt8 := 0x22

def backslash : UInt8 := 0x5C

def Scan.next (s : Scan) (b : UInt8) : Scan :=
  if s.inString then
    if s.escaped then { s with escaped := false }
    else if b == backslash then { s with escaped := true }
    else if b == quote then { s with inString := false }
    else s
  else if b == quote then { s with inString := true }
  else s

def Scan.keeps (s : Scan) (b : UInt8) : Bool := s.inString || !whitespace b

def compactFrom : Scan → List UInt8 → List UInt8
  | _, [] => []
  | s, b :: raw => if s.keeps b then b :: compactFrom (s.next b) raw else compactFrom (s.next b) raw

def compactBytes (raw : List UInt8) : List UInt8 := compactFrom ⟨false, false⟩ raw

/-- `valid` is the validity pass, with the text of its error. -/
def jsonMinify (valid : List UInt8 → Except String Unit) (raw : List UInt8) :
    Except String (List UInt8) :=
  match valid raw with
  | .error err => .error s!"failure encountered compacting json := {err}"
  | .ok () => .ok (compactBytes raw)

end PaycloudHelper.Json
