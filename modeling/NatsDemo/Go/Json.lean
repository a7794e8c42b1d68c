import NatsDemo.Go.Map
import NatsDemo.Go.Number

/-!
# JSON as `encoding/json` reads and writes it

A document is its syntax tree; bytes that are not JSON have none, so the body of a
message is an `Option Json`.  A number keeps the form of its literal, since an integer
field refuses a fraction or an exponent even where the value is whole.

Decoding follows Go: the keys of a document are taken in order, a key matches a field
up to case, `null` leaves a scalar as it is, a field of the wrong type is reported but
does not stop the decoder, and maps already present are added to.  So a decoder gives
the value reached along with whether all of it fitted.
-/

namespace NatsDemo.Go

inductive Json where
  | null
  | bool (b : Bool)
  | int (n : ℤ)
  /-- A literal with a fraction or an exponent. -/
  | frac (q : ℚ)
  | str (s : String)
  | arr (xs : List Json)
  | obj (fields : List (String × Json))

/-- What JSON becomes in a variable of type `any`. -/
inductive Value where
  | nil
  | bool (b : Bool)
  | float (q : ℚ)
  | str (s : String)
  | slice (xs : List Value)
  | map (m : List (String × Value))

/-- What an object has under a key. -/
def Json.member (key : String) : Json → Option Json
  | .obj fields => fields.lookup key
  | _ => none

/-! ## Decoding into `any` -/

/-- A number out of the range of `float64` is an error, and leaves `nil`. -/
def Value.ofNumber (q : ℚ) : Value := (roundToFloat64 q).elim .nil .float

mutual

def Json.toValue : Json → Value
  | .null => .nil
  | .bool b => .bool b
  | .int n => .ofNumber n
  | .frac q => .ofNumber q
  | .str s => .str s
  | .arr xs => .slice (Json.toValues xs)
  | .obj fields => .map (Json.addTo [] fields)

def Json.toValues : List Json → List Value
  | [] => []
  | x :: xs => x.toValue :: Json.toValues xs

/-- Set the entries in order, so that of two with one key the later stays. -/
def Json.addTo (m : GoMap Value) : List (String × Json) → GoMap Value
  | [] => m
  | (k, v) :: fields => Json.addTo (m.set k v.toValue) fields

end

mutual

/-- All the numbers of a document are in the range of `float64`. -/
def Json.fits : Json → Bool
  | .int n => (roundToFloat64 n).isSome
  | .frac q => (roundToFloat64 q).isSome
  | .arr xs => Json.fitsAll xs
  | .obj fields => Json.fitsFields fields
  | _ => true

def Json.fitsAll : List Json → Bool
  | [] => true
  | x :: xs => x.fits && Json.fitsAll xs

def Json.fitsFields : List (String × Json) → Bool
  | [] => true
  | (_, v) :: fields => v.fits && Json.fitsFields fields

end

/-! ## Decoding into a struct -/

/-- How a field takes a JSON value. -/
abbrev FieldDecoder (S : Type) := Json → S → S × Bool

section
variable {S : Type}

def stringField (set : S → String → S) : FieldDecoder S
  | .str x, s => (set s x, true)
  | .null, s => (s, true)
  | _, s => (s, false)

/-- An integer type with the given bounds. -/
def intField (lo hi : ℤ) (set : S → ℤ → S) : FieldDecoder S
  | .int n, s => if lo ≤ n ∧ n ≤ hi then (set s n, true) else (s, false)
  | .null, s => (s, true)
  | _, s => (s, false)

def boolField (set : S → Bool → S) : FieldDecoder S
  | .bool b, s => (set s b, true)
  | .null, s => (s, true)
  | _, s => (s, false)

/-- Add the entries of a `map[string]int`.  An entry that is no `int` is set to zero, which
is an error unless it is `null`. -/
def addInts (m : GoMap ℤ) : List (String × Json) → GoMap ℤ × Bool
  | [] => (m, true)
  | (k, .int n) :: fields =>
    let fits := minInt ≤ n ∧ n ≤ maxInt
    let r := addInts (m.set k (if fits then n else 0)) fields
    (r.1, decide fits && r.2)
  | (k, .null) :: fields => addInts (m.set k 0) fields
  | (k, _) :: fields => ((addInts (m.set k 0) fields).1, false)

/-- A field of type `map[string]int`. -/
def intMapField (get : S → Option (GoMap ℤ)) (set : S → Option (GoMap ℤ) → S) : FieldDecoder S
  | .obj fields, s =>
    let r := addInts ((get s).getD []) fields
    (set s (some r.1), r.2)
  | .null, s => (set s none, true)
  | _, s => (s, false)

/-- A field of type `map[string]any`. -/
def anyMapField (get : S → Option (GoMap Value)) (set : S → Option (GoMap Value) → S) :
    FieldDecoder S
  | .obj fields, s => (set s (some (Json.addTo ((get s).getD []) fields)), Json.fitsFields fields)
  | .null, s => (set s none, true)
  | _, s => (s, false)

/-- Add the entries of a `map[string]string`.  An entry that is no string is set to the
empty string, which is an error unless it is `null`. -/
def addStrings (m : GoMap String) : List (String × Json) → GoMap String × Bool
  | [] => (m, true)
  | (k, .str x) :: fields => addStrings (m.set k x) fields
  | (k, .null) :: fields => addStrings (m.set k "") fields
  | (k, _) :: fields => ((addStrings (m.set k "") fields).1, false)

/-- A field of type `map[string]string`. -/
def stringMapField (get : S → Option (GoMap String)) (set : S → Option (GoMap String) → S) :
    FieldDecoder S
  | .obj fields, s =>
    let r := addStrings ((get s).getD []) fields
    (set s (some r.1), r.2)
  | .null, s => (set s none, true)
  | _, s => (s, false)

/-- The case folding of field names: besides the letters of ASCII, the long s and the
Kelvin sign fold to one. -/
def foldRune (c : Char) : Char :=
  if c = Char.ofNat 0x17F then 'S' else if c = Char.ofNat 0x212A then 'K' else c.toUpper

def foldName (s : String) : List Char := s.toList.map foldRune

/-- One key of a document: an unknown one is skipped. -/
def decodeKey (table : List (String × FieldDecoder S)) (key : String) (v : Json) (s : S) :
    S × Bool :=
  match table.find? fun f => foldName f.1 = foldName key with
  | some f => f.2 v s
  | none => (s, true)

def decodeFields (table : List (String × FieldDecoder S)) : List (String × Json) → S → S × Bool
  | [], s => (s, true)
  | (key, v) :: fields, s =>
    let r := decodeKey table key v s
    let r' := decodeFields table fields r.1
    (r'.1, r.2 && r'.2)

/-- `json.Unmarshal` into a struct that starts as `zero`. -/
def unmarshal (table : List (String × FieldDecoder S)) (zero : S) : Option Json → S × Bool
  | some (.obj fields) => decodeFields table fields zero
  | some .null => (zero, true)
  | _ => (zero, false)

end

/-! ## Encoding -/

/-- A `float64` is written without an exponent as long as it is below `1e21`. -/
def Json.ofFloat (q : ℚ) : Json :=
  if q.den = 1 ∧ |q| < 10 ^ 21 then .int q.num else .frac q

mutual

def Value.toJson : Value → Json
  | .nil => .null
  | .bool b => .bool b
  | .float q => .ofFloat q
  | .str s => .str s
  | .slice xs => .arr (Value.toJsons xs)
  | .map m => .obj (GoMap.sorted (Value.toFields m))

def Value.toJsons : List Value → List Json
  | [] => []
  | x :: xs => x.toJson :: Value.toJsons xs

def Value.toFields : List (String × Value) → List (String × Json)
  | [] => []
  | (k, v) :: m => (k, v.toJson) :: Value.toFields m

end

/-- `json.Marshal` of a `map[string]any`. -/
def marshalMap : Option (GoMap Value) → Json
  | none => .null
  | some m => (Value.map m).toJson

/-- A string field with `omitempty`. -/
def omitEmpty (name x : String) : List (String × Json) :=
  if x = "" then [] else [(name, .str x)]

end NatsDemo.Go
