import NatsDemo.Go.Json

/-!
# The text of a document

Some replies are not marshalled but written by a format string, so what they are depends
on their characters.  `parse` reads a text as `encoding/json` does, escapes and surrogate
pairs included.  `render` writes a document the way the format strings do, with every
string as it stands; `parse_render` says that this is right as long as no string holds a
quote, a backslash or a control character.
-/

namespace NatsDemo.Go.JsonText

def isSpace (c : Char) : Bool := c = ' ' || c = '\t' || c = '\n' || c = '\r'

def skipSpace (cs : List Char) : List Char := cs.dropWhile isSpace

/-! ## Strings -/

def hexDigit (c : Char) : Option ℕ :=
  if '0' ≤ c ∧ c ≤ '9' then some (c.toNat - 48)
  else if 'a' ≤ c ∧ c ≤ 'f' then some (c.toNat - 87)
  else if 'A' ≤ c ∧ c ≤ 'F' then some (c.toNat - 55)
  else none

/-- The escapes of one letter. -/
def escapes : List (Char × ℕ) :=
  [('\"', 34), ('\\', 92), ('/', 47), ('b', 8), ('f', 12), ('n', 10), ('r', 13), ('t', 9)]

/-- Where the reading of a string stands. -/
inductive Mode where
  | plain
  | escape
  /-- With `k + 1` hexadecimal digits to come. -/
  | hex (acc k : ℕ)

/-- The code units of a string up to the closing quote, and what follows it. -/
def units : Mode → List Char → Option (List ℕ × List Char)
  | _, [] => none
  | .plain, c :: cs =>
    if c = '\"' then some ([], cs)
    else if c = '\\' then units .escape cs
    else if c.toNat < 32 then none
    else (units .plain cs).map fun r => (c.toNat :: r.1, r.2)
  | .escape, c :: cs =>
    if c = 'u' then units (.hex 0 3) cs
    else (escapes.lookup c).bind fun u => (units .plain cs).map fun r => (u :: r.1, r.2)
  | .hex acc k, c :: cs =>
    (hexDigit c).bind fun d =>
      match k with
      | 0 => (units .plain cs).map fun r => ((16 * acc + d) :: r.1, r.2)
      | k + 1 => units (.hex (16 * acc + d) k) cs

/-- Pairs of surrogates make one character, and one alone is replaced. -/
def combine : List ℕ → List Char
  | [] => []
  | [u] => [if 0xD800 ≤ u ∧ u < 0xE000 then Char.ofNat 0xFFFD else Char.ofNat u]
  | u :: v :: us =>
    if 0xD800 ≤ u ∧ u < 0xDC00 ∧ 0xDC00 ≤ v ∧ v < 0xE000 then
      Char.ofNat (0x10000 + (u - 0xD800) * 0x400 + (v - 0xDC00)) :: combine us
    else
      (if 0xD800 ≤ u ∧ u < 0xE000 then Char.ofNat 0xFFFD else Char.ofNat u) :: combine (v :: us)

/-- A string after its opening quote. -/
def string (cs : List Char) : Option (String × List Char) :=
  (units .plain cs).map fun r => (String.ofList (combine r.1), r.2)

/-! ## Numbers -/

/-- The digits at the start, of which there must be one. -/
def digits (cs : List Char) : Option (List Char × List Char) :=
  if cs.takeWhile Char.isDigit = [] then none
  else some (cs.takeWhile Char.isDigit, cs.dropWhile Char.isDigit)

def fraction : List Char → Option (List Char × List Char)
  | '.' :: cs => digits cs
  | cs => some ([], cs)

/-- The exponent, if there is one. -/
def exponent : List Char → Option (Option ℤ × List Char)
  | c :: cs =>
    if c = 'e' ∨ c = 'E' then
      let signed := cs.head? = some '+' ∨ cs.head? = some '-'
      (digits (if signed then cs.tail else cs)).map fun r =>
        let n : ℤ := Nat.ofDigitChars 10 r.1 0
        (some (if cs.head? = some '-' then -n else n), r.2)
    else some (none, c :: cs)
  | [] => some (none, [])

/-- A number, whose integer part has no leading zero. -/
def number (cs : List Char) : Option (Json × List Char) :=
  let neg := cs.head? = some '-'
  (digits (if neg then cs.tail else cs)).bind fun i =>
    if i.1.head? = some '0' ∧ i.1 ≠ ['0'] then none
    else
      (fraction i.2).bind fun f =>
        (exponent f.2).map fun e =>
          let n : ℤ := Nat.ofDigitChars 10 (i.1 ++ f.1) 0
          let m : ℤ := if neg then -n else n
          (if f.1 = [] ∧ e.1 = none then .int m
            else .frac (m * (10 : ℚ) ^ (e.1.getD 0 - (f.1.length : ℤ))), e.2)

/-! ## Values -/

/-- The text after a word, if it starts with it. -/
def word (w : String) (cs : List Char) : Option (List Char) :=
  if w.toList.isPrefixOf cs then some (cs.drop w.length) else none

/-- A value that is no array and no object. -/
def scalar (cs : List Char) : Option (Json × List Char) :=
  match word "null" cs with
  | some rest => some (.null, rest)
  | none =>
    match word "true" cs with
    | some rest => some (.bool true, rest)
    | none =>
      match word "false" cs with
      | some rest => some (.bool false, rest)
      | none => number cs

mutual

/-- A value, for a text that is not longer than the fuel. -/
def value : ℕ → List Char → Option (Json × List Char)
  | 0, _ => none
  | n + 1, cs =>
    match skipSpace cs with
    | [] => none
    | c :: cs =>
      if c = '\"' then (string cs).map fun r => (.str r.1, r.2)
      else if c = '[' then
        if (skipSpace cs).head? = some ']' then some (.arr [], (skipSpace cs).tail)
        else (elements n cs).map fun r => (.arr r.1, r.2)
      else if c = '\x7b' then
        if (skipSpace cs).head? = some '\x7d' then some (.obj [], (skipSpace cs).tail)
        else (members n cs).map fun r => (.obj r.1, r.2)
      else scalar (c :: cs)

/-- The elements of an array that has some, up to its end. -/
def elements : ℕ → List Char → Option (List Json × List Char)
  | 0, _ => none
  | n + 1, cs =>
    (value n cs).bind fun x =>
      match skipSpace x.2 with
      | [] => none
      | c :: cs =>
        if c = ']' then some ([x.1], cs)
        else if c = ',' then (elements n cs).map fun r => (x.1 :: r.1, r.2)
        else none

/-- The members of an object that has some, up to its end. -/
def members : ℕ → List Char → Option (List (String × Json) × List Char)
  | 0, _ => none
  | n + 1, cs =>
    (member n cs).bind fun x =>
      match skipSpace x.2 with
      | [] => none
      | c :: cs =>
        if c = '\x7d' then some ([x.1], cs)
        else if c = ',' then (members n cs).map fun r => (x.1 :: r.1, r.2)
        else none

def member : ℕ → List Char → Option ((String × Json) × List Char)
  | 0, _ => none
  | n + 1, cs =>
    match skipSpace cs with
    | [] => none
    | c :: cs =>
      if c = '\"' then
        (string cs).bind fun k =>
          match skipSpace k.2 with
          | [] => none
          | c :: cs =>
            if c = ':' then (value n cs).map fun x => ((k.1, x.1), x.2) else none
      else none

end

/-- The document that a text is, if it is one. -/
def parse (cs : List Char) : Option Json :=
  match value (2 * cs.length + 1) cs with
  | some (j, rest) => if skipSpace rest = [] then some j else none
  | none => none

/-! ## What a format string writes -/

/-- The values that the verbs `%t`, `%d` and `"%s"` stand for. -/
inductive Scalar where
  | bool (b : Bool)
  | nat (n : ℕ)
  | str (s : String)

namespace Scalar

def toJson : Scalar → Json
  | bool b => .bool b
  | nat n => .int n
  | str s => .str s

end Scalar

def quoted (cs : List Char) : List Char := '\"' :: cs ++ ['\"']

def Scalar.render : Scalar → List Char
  | bool true => "true".toList
  | bool false => "false".toList
  | nat n => (toString n).toList
  | str s => quoted s.toList

theorem Scalar.render_bool (b : Bool) : (bool b).render = (toString b).toList := by
  cases b <;> rfl

theorem Scalar.render_nat (n : ℕ) : (nat n).render = (toString n).toList := rfl

theorem Scalar.render_str (s : String) : (str s).render = '\"' :: (s.toList ++ ['\"']) := rfl

def renderMember (e : String × Scalar) : List Char := quoted e.1.toList ++ ':' :: e.2.render

/-- The members after the first, and the end. -/
def renderRest : List (String × Scalar) → List Char
  | [] => ['\x7d']
  | e :: fields => ',' :: renderMember e ++ renderRest fields

/-- An object that has members. -/
def renderObject (e : String × Scalar) (fields : List (String × Scalar)) : List Char :=
  '\x7b' :: renderMember e ++ renderRest fields

/-- A character that stands for itself between quotes. -/
def PlainChar (c : Char) : Prop := c ≠ '\"' ∧ c ≠ '\\' ∧ 32 ≤ c.toNat

instance (c : Char) : Decidable (PlainChar c) := inferInstanceAs (Decidable (_ ∧ _ ∧ _))

/-- A text that stands for itself between quotes. -/
def Plain (s : String) : Prop := ∀ c ∈ s.toList, PlainChar c

instance (s : String) : Decidable (Plain s) := @List.decidableBAll Char PlainChar _ s.toList

theorem plain_append {x y : String} : Plain (x ++ y) ↔ Plain x ∧ Plain y := by
  simp only [Plain, String.toList_append, List.forall_mem_append]

theorem plain_toString (n : ℕ) : Plain (toString n) := by
  intro c hc
  have hmem : c ∈ Nat.toDigits 10 n := by simpa using hc
  have hdigit := Nat.isDigit_of_mem_toDigits (by decide) (by decide) hmem
  have hlow : '0'.toNat ≤ c.toNat := (Char.isDigit_iff_toNat.mp hdigit).1
  refine ⟨?_, ?_, le_trans (by decide) hlow⟩ <;> intro hc <;> subst hc <;> cases hdigit

def Scalar.Plain : Scalar → Prop
  | str s => JsonText.Plain s
  | _ => True

/-! ### It is read as it was meant -/

theorem units_plain {cs : List Char} (h : ∀ c ∈ cs, PlainChar c) (rest : List Char) :
    units .plain (cs ++ '\"' :: rest) = some (cs.map Char.toNat, rest) := by
  induction cs with
  | nil => rfl
  | cons c cs ih =>
    obtain ⟨⟨hquote, hback, hcontrol⟩, hcs⟩ := List.forall_mem_cons.mp h
    rw [List.cons_append, units, if_neg hquote, if_neg hback, if_neg (by omega), ih hcs]
    rfl

/-- No character is a surrogate. -/
theorem not_surrogate (c : Char) : ¬ (0xD800 ≤ c.toNat ∧ c.toNat < 0xE000) := by
  have hvalid : c.toNat.isValidChar := c.valid
  rcases hvalid with h | h <;> omega

theorem combine_map_toNat (cs : List Char) : combine (cs.map Char.toNat) = cs := by
  induction cs with
  | nil => rfl
  | cons c cs ih =>
    have hc := not_surrogate c
    cases cs with
    | nil => rw [List.map_cons, List.map_nil, combine, if_neg hc, Char.ofNat_toNat]
    | cons c' cs =>
      have hpair : ¬ (0xD800 ≤ c.toNat ∧ c.toNat < 0xDC00 ∧ 0xDC00 ≤ c'.toNat ∧
          c'.toNat < 0xE000) := by omega
      rw [List.map_cons] at ih
      rw [List.map_cons, List.map_cons, combine, if_neg hpair, if_neg hc, Char.ofNat_toNat, ih]

theorem string_plain {s : String} (h : Plain s) (rest : List Char) :
    string (s.toList ++ '\"' :: rest) = some (s, rest) := by
  rw [string, units_plain h, Option.map_some, combine_map_toNat, String.ofList_toList]

/-- What may follow a value in an object. -/
def Closed (rest : List Char) : Prop := rest.head? = some ',' ∨ rest.head? = some '\x7d'

theorem digits_toDigits (n : ℕ) {rest : List Char} (hrest : Closed rest) :
    digits (Nat.toDigits 10 n ++ rest) = some (Nat.toDigits 10 n, rest) := by
  have hdigits : ∀ c ∈ Nat.toDigits 10 n, c.isDigit = true := fun c hc =>
    Nat.isDigit_of_mem_toDigits (by decide) (by decide) hc
  have htake : rest.takeWhile Char.isDigit = [] ∧ rest.dropWhile Char.isDigit = rest := by
    cases rest with
    | nil => exact ⟨rfl, rfl⟩
    | cons c rest =>
      rcases hrest with h | h <;> obtain rfl := Option.some_inj.mp h <;> exact ⟨rfl, rfl⟩
  rw [digits, List.takeWhile_append_of_pos hdigits, List.dropWhile_append_of_pos hdigits,
    htake.1, htake.2, List.append_nil, if_neg Nat.toDigits_ne_nil]

/-- No number but zero starts with a zero. -/
theorem toDigits_head (n : ℕ) (h : (Nat.toDigits 10 n).head? = some '0') :
    Nat.toDigits 10 n = ['0'] := by
  induction n using Nat.strong_induction_on with
  | _ n ih =>
    by_cases hn : n < 10
    · rw [Nat.toDigits_of_lt_base hn] at h ⊢
      rw [Option.some_inj.mp h]
    · have hsplit := Nat.toDigits_of_base_le (b := 10) (by decide) (Nat.le_of_not_lt hn)
      rw [hsplit, List.head?_append_of_ne_nil _ Nat.toDigits_ne_nil] at h
      have hzero := ih (n / 10) (by omega) h
      have hdiv : n / 10 = 0 := by
        rw [← Nat.ofDigitChars_ten_toDigits (n := n / 10), hzero]
        rfl
      omega

theorem head?_toDigits_ne (n : ℕ) (rest : List Char) {c : Char} (hc : c.isDigit = false) :
    (Nat.toDigits 10 n ++ rest).head? ≠ some c := by
  rw [List.head?_append_of_ne_nil _ Nat.toDigits_ne_nil]
  intro h
  have hmem := List.mem_of_mem_head? h
  have hdigit := Nat.isDigit_of_mem_toDigits (by decide) (by decide) hmem
  exact Bool.false_ne_true (hc.symm.trans hdigit)

theorem Closed.cases {rest : List Char} (h : Closed rest) :
    ∃ cs, rest = ',' :: cs ∨ rest = '\x7d' :: cs := by
  cases rest with
  | nil => rcases h with h | h <;> cases h
  | cons c cs => exact ⟨cs, h.imp (fun h => by rw [Option.some_inj.mp h])
      fun h => by rw [Option.some_inj.mp h]⟩

theorem number_toDigits (n : ℕ) {rest : List Char} (hrest : Closed rest) :
    number (Nat.toDigits 10 n ++ rest) = some (.int n, rest) := by
  have hneg : (Nat.toDigits 10 n ++ rest).head? ≠ some '-' := head?_toDigits_ne n rest rfl
  have hzero : ¬ ((Nat.toDigits 10 n).head? = some '0' ∧ Nat.toDigits 10 n ≠ ['0']) :=
    fun h => h.2 (toDigits_head n h.1)
  have hend : fraction rest = some ([], rest) ∧ exponent rest = some (none, rest) := by
    obtain ⟨cs, rfl | rfl⟩ := hrest.cases <;> exact ⟨rfl, rfl⟩
  simp only [number, if_neg hneg, digits_toDigits n hrest, Option.bind_some, if_neg hzero, hend.1,
    hend.2, Option.map_some, List.append_nil, Nat.ofDigitChars_ten_toDigits, and_self, if_true]

theorem scalar_toDigits (n : ℕ) {rest : List Char} (hrest : Closed rest) :
    scalar (Nat.toDigits 10 n ++ rest) = some (.int n, rest) := by
  have hword (w : String) (c : Char) (cs : List Char) (hw : w.toList = c :: cs)
      (hc : c.isDigit = false) : word w (Nat.toDigits 10 n ++ rest) = none := by
    have hne := head?_toDigits_ne n rest hc
    rw [word, hw]
    cases htext : Nat.toDigits 10 n ++ rest with
    | nil => rfl
    | cons c' cs' =>
      rw [htext] at hne
      have hcc : (c == c') = false := by
        rw [beq_eq_false_iff_ne]
        rintro rfl
        exact hne rfl
      rw [List.isPrefixOf_cons_cons, hcc]
      rfl
  rw [scalar, hword "null" 'n' _ rfl rfl, hword "true" 't' _ rfl rfl, hword "false" 'f' _ rfl rfl]
  exact number_toDigits n hrest

/-- A value that is no string, no array and no object. -/
theorem value_of_scalar (n : ℕ) {c : Char} {cs : List Char} (hspace : isSpace c = false)
    (hquote : c ≠ '\"') (harr : c ≠ '[') (hobj : c ≠ '\x7b') :
    value (n + 1) (c :: cs) = scalar (c :: cs) := by
  rw [value, skipSpace, List.dropWhile_cons_of_neg (by rw [hspace]; decide)]
  simp only [if_neg hquote, if_neg harr, if_neg hobj]

theorem value_render (n : ℕ) {v : Scalar} (hv : v.Plain) {rest : List Char} (hrest : Closed rest) :
    value (n + 1) (v.render ++ rest) = some (v.toJson, rest) := by
  cases v with
  | bool b => cases b <;> rfl
  | nat k =>
    have hdigits : (toString k).toList = Nat.toDigits 10 k := by simp
    rw [Scalar.render, hdigits]
    cases htext : Nat.toDigits 10 k ++ rest with
    | nil => simp [Nat.toDigits_ne_nil] at htext
    | cons c cs =>
      have hne (c' : Char) (hc' : c'.isDigit = false) : c ≠ c' := by
        rintro rfl
        exact head?_toDigits_ne k rest hc' (by rw [htext]; rfl)
      have hspace : isSpace c = false := by
        simp [isSpace, hne ' ' rfl, hne '\t' rfl, hne '\n' rfl, hne '\r' rfl]
      rw [value_of_scalar n hspace (hne _ rfl) (hne _ rfl) (hne _ rfl), ← htext]
      exact scalar_toDigits k hrest
  | str s =>
    rw [Scalar.render, quoted, List.append_assoc]
    show (string (s.toList ++ '\"' :: rest)).map _ = _
    rw [string_plain hv]
    rfl

theorem member_render (n : ℕ) {e : String × Scalar} (hkey : Plain e.1) (hv : e.2.Plain)
    {rest : List Char} (hrest : Closed rest) :
    member (n + 2) (renderMember e ++ rest) = some ((e.1, e.2.toJson), rest) := by
  rw [renderMember, quoted, List.append_assoc, List.append_assoc]
  show (string (e.1.toList ++ '\"' :: ':' :: (e.2.render ++ rest))).bind _ = _
  rw [string_plain hkey]
  show (value (n + 1) (e.2.render ++ rest)).map _ = _
  rw [value_render n hv hrest]
  rfl

theorem closed_renderRest (fields : List (String × Scalar)) (rest : List Char) :
    Closed (renderRest fields ++ rest) := by
  cases fields with
  | nil => exact Or.inr rfl
  | cons e fields => exact Or.inl rfl

/-- All names and texts of an object stand for themselves. -/
def PlainFields (fields : List (String × Scalar)) : Prop :=
  ∀ e ∈ fields, Plain e.1 ∧ e.2.Plain

theorem members_render {e : String × Scalar} {fields : List (String × Scalar)}
    (h : PlainFields (e :: fields)) {n : ℕ} (hn : fields.length + 3 ≤ n) (rest : List Char) :
    members n (renderMember e ++ renderRest fields ++ rest) =
      some ((e :: fields).map fun e => (e.1, e.2.toJson), rest) := by
  induction fields generalizing e n with
  | nil =>
    obtain ⟨n, rfl⟩ := Nat.exists_eq_add_of_le' hn
    have he := h e List.mem_cons_self
    rw [List.append_assoc]
    show (member (n + 2) _).bind _ = _
    rw [member_render n he.1 he.2 (closed_renderRest [] rest)]
    rfl
  | cons e' fields ih =>
    obtain ⟨n, rfl⟩ := Nat.exists_eq_add_of_le' hn
    have he := h e List.mem_cons_self
    have hfields : PlainFields (e' :: fields) := fun e he => h e (List.mem_cons_of_mem _ he)
    rw [List.append_assoc]
    show (member (n + fields.length + 3) _).bind _ = _
    rw [member_render (n + fields.length + 1) he.1 he.2 (closed_renderRest _ rest)]
    show (members (n + fields.length + 3) (renderMember e' ++ renderRest fields ++ rest)).map _ = _
    rw [ih hfields (by omega)]
    rfl

theorem length_renderRest (fields : List (String × Scalar)) :
    fields.length ≤ (renderRest fields).length := by
  induction fields with
  | nil => exact Nat.zero_le _
  | cons e fields ih => simp [renderRest]; omega

/-- **What the format strings write is read as it was meant**, for plain texts. -/
theorem parse_renderObject {e : String × Scalar} {fields : List (String × Scalar)}
    (h : PlainFields (e :: fields)) :
    parse (renderObject e fields) = some (.obj ((e :: fields).map fun e => (e.1, e.2.toJson))) := by
  have hlen : fields.length + 3 ≤ 2 * (renderObject e fields).length := by
    have hrest := length_renderRest fields
    simp [renderObject, renderMember, quoted]
    omega
  have hmembers := members_render h hlen []
  rw [List.append_nil] at hmembers
  have hvalue : value (2 * (renderObject e fields).length + 1) (renderObject e fields) =
      some (.obj ((e :: fields).map fun e => (e.1, e.2.toJson)), []) := by
    generalize 2 * (renderObject e fields).length = n at hmembers
    show (members n (renderMember e ++ renderRest fields)).map _ = _
    rw [hmembers]
    rfl
  rw [parse, hvalue]
  rfl

end NatsDemo.Go.JsonText
