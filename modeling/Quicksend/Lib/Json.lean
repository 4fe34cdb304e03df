import Quicksend.Lib.Hex
import Quicksend.Lib.Utf16
import Mathlib.Data.Nat.Digits.Defs
import Mathlib.Data.UInt

/-!
# JSON texts

Values, the texts that a writer makes of them, and a parser. A string stands in
a value as the writer's language has it, a number as it is written; the parser
reads strings as UTF-16 code units, whose surrogates need not be paired. What
was written is read back, whatever the writer escapes.
-/

namespace Json

/-! ## Numbers -/

/-- A character that may stand in a number, wherever in it; `isNumber` says which
sequences are one. -/
def isNumberChar (c : Char) : Bool := c.isDigit || c ∈ ['-', '+', '.', 'e', 'E']

/-- Nothing, or `e` or `E`, a sign that may be left out, and one digit at least. -/
def isExponent : List Char → Bool
  | [] => true
  | c :: cs =>
      let digits := match cs with
        | '+' :: cs | '-' :: cs => cs
        | cs => cs
      (c = 'e' || c = 'E') && !digits.isEmpty && digits.all Char.isDigit

/-- What may follow the integer part: a point with at least one digit, an
exponent, both or nothing. -/
def isFraction : List Char → Bool
  | '.' :: cs => !(cs.takeWhile Char.isDigit).isEmpty && isExponent (cs.dropWhile Char.isDigit)
  | cs => isExponent cs

/-- An integer part without a leading zero, and behind it a fraction and an
exponent that may both be left out. -/
def isUnsigned (cs : List Char) : Bool :=
  match cs.takeWhile Char.isDigit with
  | [] => false
  | '0' :: _ :: _ => false
  | _ => isFraction (cs.dropWhile Char.isDigit)

/-- The grammar of numbers: an optional minus in front of an integer part, a
fraction and an exponent. -/
def isNumber (cs : List Char) : Bool :=
  cs.all isNumberChar && match cs with
    | '-' :: cs => isUnsigned cs
    | cs => isUnsigned cs

/-- A number as it is written, with the proof that it is written as the grammar
wants it. -/
structure Number where
  lexeme : List Char
  isNumber : isNumber lexeme = true

/-! ## Values -/

/-- A JSON value over a type of strings. The fields of an object stand in the
order of the text, and one name may stand twice. -/
inductive Value (σ : Type) where
  | null
  | bool (b : Bool)
  | num (n : Number)
  | str (s : σ)
  | arr (elements : List (Value σ))
  | obj (fields : List (σ × Value σ))

variable {σ : Type}

namespace Value

mutual
/-- The same value with other strings; a reader and a writer may have different
ones. -/
def map {τ : Type} (f : σ → τ) : Value σ → Value τ
  | .null => .null
  | .bool b => .bool b
  | .num n => .num n
  | .str s => .str (f s)
  | .arr elements => .arr (mapElements f elements)
  | .obj fields => .obj (mapFields f fields)

/-- `map` on the elements of an array, one after the other. -/
def mapElements {τ : Type} (f : σ → τ) : List (Value σ) → List (Value τ)
  | [] => []
  | v :: vs => v.map f :: mapElements f vs

/-- `map` on the fields of an object, on their names as on their values. -/
def mapFields {τ : Type} (f : σ → τ) : List (σ × Value σ) → List (τ × Value τ)
  | [] => []
  | (k, v) :: fields => (f k, v.map f) :: mapFields f fields
end

mutual
theorem map_id (v : Value σ) : v.map id = v := by
  cases v with
  | null => rfl
  | bool b => rfl
  | num n => rfl
  | str s => rfl
  | arr elements => exact congrArg arr (mapElements_id elements)
  | obj fields => exact congrArg obj (mapFields_id fields)
theorem mapElements_id (elements : List (Value σ)) : mapElements id elements = elements := by
  cases elements with
  | nil => rfl
  | cons v vs =>
      rw [mapElements, map_id v, mapElements_id vs]
theorem mapFields_id (fields : List (σ × Value σ)) : mapFields id fields = fields := by
  cases fields with
  | nil => rfl
  | cons field fields =>
      obtain ⟨k, v⟩ := field
      rw [mapFields, map_id v, mapFields_id fields, id]
end

end Value

/-! ## Reading -/

/-- The four characters that may stand between the tokens of a text. -/
def isSpace (c : Char) : Bool := c ∈ [' ', '\t', '\n', '\r']

/-- What is left of a text from its next token on, which is nothing when there is
none. -/
def skipSpace (cs : List Char) : List Char := cs.dropWhile isSpace

/-- What a character of a `\u` escape is worth as a digit. -/
def hexDigit? (c : Char) : Option Nat := Hex.value? c.toNat

/-- The code unit that four hexadecimal digits spell, if that is what they all
are. -/
def hex4? (a b c d : Char) : Option UInt16 :=
  match hexDigit? a, hexDigit? b, hexDigit? c, hexDigit? d with
  | some a, some b, some c, some d => some (UInt16.ofNat (((a * 16 + b) * 16 + c) * 16 + d))
  | _, _, _, _ => none

/-- The escapes of one character: what the letter behind a backslash stands for. -/
def unescape? : Char → Option UInt16
  | '"' => some 34
  | '\\' => some 92
  | '/' => some 47
  | 'b' => some 8
  | 'f' => some 12
  | 'n' => some 10
  | 'r' => some 13
  | 't' => some 9
  | _ => none

/-- The rest of a string, up to its closing quotation mark. -/
def unquote : List Char → Option (List UInt16 × List Char)
  | [] => none
  | '"' :: cs => some ([], cs)
  | '\\' :: 'u' :: a :: b :: c :: d :: cs =>
      match hex4? a b c d, unquote cs with
      | some u, some (us, cs) => some (u :: us, cs)
      | _, _ => none
  | '\\' :: c :: cs =>
      match unescape? c, unquote cs with
      | some u, some (us, cs) => some (u :: us, cs)
      | _, _ => none
  | c :: cs =>
      if c.toNat < 0x20 then none
      else (unquote cs).map fun r => (Utf16.encodeChar c ++ r.1, r.2)

/-- A literal or a number at the beginning of the text, with what follows it. -/
def parseScalar (cs : List Char) : Option (Value (List UInt16) × List Char) :=
  match cs with
  | 'n' :: 'u' :: 'l' :: 'l' :: cs => some (.null, cs)
  | 't' :: 'r' :: 'u' :: 'e' :: cs => some (.bool true, cs)
  | 'f' :: 'a' :: 'l' :: 's' :: 'e' :: cs => some (.bool false, cs)
  | cs =>
      -- what a number is made of follows none
      if h : isNumber (cs.takeWhile isNumberChar) = true then
        some (.num ⟨_, h⟩, cs.dropWhile isNumberChar)
      else none

mutual
/-- A value at the beginning of the text; every call takes a character of it. -/
def parseValue : Nat → List Char → Option (Value (List UInt16) × List Char)
  | 0, _ => none
  | fuel + 1, cs =>
      match skipSpace cs with
      | '"' :: cs => (unquote cs).map fun r => (.str r.1, r.2)
      | '[' :: cs =>
          match skipSpace cs with
          | ']' :: cs => some (.arr [], cs)
          | cs =>
              match parseValue fuel cs with
              | some (v, cs) => (parseElements fuel cs).map fun r => (.arr (v :: r.1), r.2)
              | none => none
      | '{' :: cs =>
          match skipSpace cs with
          | '}' :: cs => some (.obj [], cs)
          | cs =>
              match parseMember fuel cs with
              | some (m, cs) => (parseFields fuel cs).map fun r => (.obj (m :: r.1), r.2)
              | none => none
      | cs => parseScalar cs

/-- The elements behind the first one, each with its comma, up to the closing
bracket; `fuel` bounds the depth and the length. -/
def parseElements : Nat → List Char → Option (List (Value (List UInt16)) × List Char)
  | 0, _ => none
  | fuel + 1, cs =>
      match skipSpace cs with
      | ']' :: cs => some ([], cs)
      | ',' :: cs =>
          match parseValue fuel cs with
          | some (v, cs) => (parseElements fuel cs).map fun r => (v :: r.1, r.2)
          | none => none
      | _ => none

/-- A field of an object: its name as a string, a colon, and its value. -/
def parseMember : Nat → List Char → Option ((List UInt16 × Value (List UInt16)) × List Char)
  | 0, _ => none
  | fuel + 1, cs =>
      match skipSpace cs with
      | '"' :: cs =>
          match unquote cs with
          | some (k, cs) =>
              match skipSpace cs with
              | ':' :: cs => (parseValue fuel cs).map fun r => ((k, r.1), r.2)
              | _ => none
          | none => none
      | _ => none

/-- The fields behind the first one, each with its comma, up to the closing brace. -/
def parseFields : Nat → List Char → Option (List (List UInt16 × Value (List UInt16)) × List Char)
  | 0, _ => none
  | fuel + 1, cs =>
      match skipSpace cs with
      | '}' :: cs => some ([], cs)
      | ',' :: cs =>
          match parseMember fuel cs with
          | some (m, cs) => (parseFields fuel cs).map fun r => (m :: r.1, r.2)
          | none => none
      | _ => none
end

/-- A whole text: one value, with nothing but white space around it. -/
def parse (cs : List Char) : Option (Value (List UInt16)) :=
  match parseValue (cs.length + 1) cs with
  | some (v, rest) => if skipSpace rest = [] then some v else none
  | none => none

/-! ## Writing -/

/-- A way to write strings, and the code units that a reader makes of them. -/
structure Quoting (σ : Type) where
  /-- What follows the opening quotation mark. -/
  body : σ → List Char
  units : σ → List UInt16
  unquote_body : ∀ s rest, unquote (body s ++ rest) = some (units s, rest)

/-- A string between quotation marks; the closing one is written by the body. -/
def Quoting.quote (q : Quoting σ) (s : σ) : List Char := '"' :: q.body s

section
variable (q : Quoting σ)

mutual
/-- The text of a value with no space in it, with the strings quoted as `q` has
it. -/
def write : Value σ → List Char
  | .null => ['n', 'u', 'l', 'l']
  | .bool true => ['t', 'r', 'u', 'e']
  | .bool false => ['f', 'a', 'l', 's', 'e']
  | .num n => n.lexeme
  | .str s => q.quote s
  | .arr [] => ['[', ']']
  | .arr (v :: vs) => '[' :: (write v ++ writeElements vs)
  | .obj [] => ['{', '}']
  | .obj ((k, v) :: fields) => '{' :: (q.quote k ++ ':' :: (write v ++ writeFields fields))
/-- The elements after the first, and the closing bracket. -/
def writeElements : List (Value σ) → List Char
  | [] => [']']
  | v :: vs => ',' :: (write v ++ writeElements vs)

/-- The fields after the first, each with its comma, and the closing brace. -/
def writeFields : List (σ × Value σ) → List Char
  | [] => ['}']
  | (k, v) :: fields => ',' :: (q.quote k ++ ':' :: (write v ++ writeFields fields))
end

end

/-! ## What was written is read back -/

@[simp] theorem skipSpace_cons {c : Char} (h : isSpace c = false) (cs : List Char) :
    skipSpace (c :: cs) = c :: cs := by
  rw [skipSpace, List.dropWhile_cons_of_neg (by simpa using h)]

/-- A text that does not go on with a number. -/
def Ends (rest : List Char) : Prop := ∀ c ∈ rest.head?, isNumberChar c = false

theorem isNumber_ne_nil (n : Number) : n.lexeme ≠ [] := by
  obtain ⟨lexeme, h⟩ := n
  rintro rfl
  exact absurd h (by decide)

theorem isNumberChar_of_mem (n : Number) : ∀ c ∈ n.lexeme, isNumberChar c = true := by
  have h := n.isNumber
  unfold Json.isNumber at h
  exact List.all_eq_true.mp ((Bool.and_eq_true _ _).mp h).1

theorem takeWhile_lexeme (n : Number) {rest : List Char} (h : Ends rest) :
    (n.lexeme ++ rest).takeWhile isNumberChar = n.lexeme ∧
      (n.lexeme ++ rest).dropWhile isNumberChar = rest := by
  have hall := isNumberChar_of_mem n
  rw [List.takeWhile_append_of_pos hall, List.dropWhile_append_of_pos hall]
  cases rest with
  | nil => simp
  | cons c rest => simp [h c rfl]

/-- The first character of a number, none of which begins anything else. -/
theorem lexeme_head (n : Number) : ∃ c cs, n.lexeme = c :: cs ∧ isNumberChar c = true := by
  cases h : n.lexeme with
  | nil => exact absurd h (isNumber_ne_nil n)
  | cons c cs => exact ⟨c, cs, rfl, isNumberChar_of_mem n c (by simp [h])⟩

theorem parseScalar_number (n : Number) {rest : List Char} (h : Ends rest) :
    parseScalar (n.lexeme ++ rest) = some (.num n, rest) := by
  obtain ⟨c, cs, hn, hc⟩ := lexeme_head n
  obtain ⟨htake, hdrop⟩ := takeWhile_lexeme n h
  unfold parseScalar
  split
  next heq =>
    rw [hn] at heq
    obtain rfl : c = 'n' := (List.cons.inj heq).1
    cases hc
  next heq =>
    rw [hn] at heq
    obtain rfl : c = 't' := (List.cons.inj heq).1
    cases hc
  next heq =>
    rw [hn] at heq
    obtain rfl : c = 'f' := (List.cons.inj heq).1
    cases hc
  next =>
    simp only [htake, hdrop]
    rw [dif_pos n.isNumber]

variable (q : Quoting σ)

/-- What a value may begin with; after white space the first character decides its
kind. -/
def isStart (c : Char) : Bool := isNumberChar c || c ∈ ['n', 't', 'f', '"', '[', '{']

theorem write_head (v : Value σ) : ∃ c cs, write q v = c :: cs ∧ isStart c = true := by
  cases v with
  | null => exact ⟨'n', _, rfl, by decide⟩
  | bool b => cases b <;> exact ⟨_, _, rfl, by decide⟩
  | num n =>
      obtain ⟨c, cs, hn, hc⟩ := lexeme_head n
      exact ⟨c, cs, hn, by rw [isStart, hc, Bool.true_or]⟩
  | str s => exact ⟨'"', _, rfl, by decide⟩
  | arr vs => cases vs <;> exact ⟨'[', _, rfl, by decide⟩
  | obj fields =>
      cases fields with
      | nil => exact ⟨'{', _, rfl, by decide⟩
      | cons m fields => exact ⟨'{', _, rfl, by decide⟩

/-- A value begins with no space. -/
theorem isSpace_of_isStart {c : Char} (h : isStart c = true) : isSpace c = false := by
  cases hs : isSpace c with
  | false => rfl
  | true =>
      simp only [isSpace, List.mem_cons, List.not_mem_nil, or_false, decide_eq_true_eq] at hs
      obtain rfl | rfl | rfl | rfl := hs <;> cases h

theorem ends_writeElements (vs : List (Value σ)) (rest : List Char) :
    Ends (writeElements q vs ++ rest) := by
  cases vs <;> exact fun c hc => by cases hc; decide

theorem ends_writeFields (fields : List (σ × Value σ)) (rest : List Char) :
    Ends (writeFields q fields ++ rest) := by
  cases fields <;> exact fun c hc => by cases hc; decide

/-- What begins like a number is read as a scalar. -/
theorem parseValue_scalar {fuel : Nat} {cs : List Char}
    (h : ∃ c cs', cs = c :: cs' ∧ isNumberChar c = true) :
    parseValue (fuel + 1) cs = parseScalar cs := by
  obtain ⟨c, cs, rfl, hc⟩ := h
  have hspace : isSpace c = false := isSpace_of_isStart (by rw [isStart, hc, Bool.true_or])
  rw [parseValue, skipSpace_cons hspace]
  split
  next heq => obtain rfl := (List.cons.inj heq).1; cases hc
  next heq => obtain rfl := (List.cons.inj heq).1; cases hc
  next heq => obtain rfl := (List.cons.inj heq).1; cases hc
  next => rfl

theorem parseValue_arr {fuel : Nat} {c : Char} {cs r r' : List Char} {v : Value (List UInt16)}
    {vs : List (Value (List UInt16))} (hspace : isSpace c = false) (hclose : c ≠ ']')
    (hv : parseValue fuel (c :: cs) = some (v, r)) (hvs : parseElements fuel r = some (vs, r')) :
    parseValue (fuel + 1) ('[' :: c :: cs) = some (.arr (v :: vs), r') := by
  rw [parseValue, skipSpace_cons (by decide)]
  simp only [skipSpace_cons hspace]
  split
  next heq => exact absurd (List.cons.inj heq).1 hclose
  next =>
    simp only [hv, hvs]
    rfl

theorem parseMember_quote {fuel : Nat} (k : σ) {cs r : List Char} {v : Value (List UInt16)}
    (hv : parseValue fuel cs = some (v, r)) :
    parseMember (fuel + 1) (q.quote k ++ ':' :: cs) = some ((q.units k, v), r) := by
  rw [Quoting.quote, List.cons_append, parseMember, skipSpace_cons (by decide)]
  simp only [q.unquote_body, skipSpace_cons (c := ':') (by decide), hv]
  rfl

theorem parseValue_obj {fuel : Nat} {k : σ} {cs r r' : List Char}
    {m : List UInt16 × Value (List UInt16)} {fields : List (List UInt16 × Value (List UInt16))}
    (hm : parseMember fuel (q.quote k ++ cs) = some (m, r))
    (hfields : parseFields fuel r = some (fields, r')) :
    parseValue (fuel + 1) ('{' :: (q.quote k ++ cs)) = some (.obj (m :: fields), r') := by
  rw [Quoting.quote, List.cons_append] at hm ⊢
  rw [parseValue, skipSpace_cons (by decide)]
  simp only [skipSpace_cons (c := '"') (by decide)]
  split
  next heq => cases (List.cons.inj heq).1
  next =>
    simp only [hm, hfields]
    rfl

mutual
theorem parseValue_write (v : Value σ) (fuel : Nat) (rest : List Char)
    (hfuel : (write q v).length < fuel) (hrest : Ends rest) :
    parseValue fuel (write q v ++ rest) = some (v.map q.units, rest) := by
  obtain ⟨fuel, rfl⟩ : ∃ k, fuel = k + 1 := ⟨fuel - 1, by omega⟩
  match v with
  | .null => rfl
  | .bool true => rfl
  | .bool false => rfl
  | .num n =>
      rw [write, parseValue_scalar (by
        obtain ⟨c, cs, hn, hc⟩ := lexeme_head n
        exact ⟨c, cs ++ rest, by rw [hn]; rfl, hc⟩), parseScalar_number n hrest]
      rfl
  | .str s =>
      change (unquote (q.body s ++ rest)).map _ = _
      rw [q.unquote_body]
      rfl
  | .arr [] => rfl
  | .arr (v :: vs) =>
      simp only [write, List.length_cons, List.length_append] at hfuel
      obtain ⟨c, cs, hc, hstart⟩ := write_head q v
      have hclose : c ≠ ']' := by
        rintro rfl
        cases hstart
      have hv := parseValue_write v fuel _ (by omega) (ends_writeElements q vs rest)
      have hvs := parseElements_write vs fuel rest (by omega)
      rw [hc, List.cons_append] at hv
      rw [write, List.cons_append, List.append_assoc, hc, List.cons_append]
      exact parseValue_arr (isSpace_of_isStart hstart) hclose hv hvs
  | .obj [] => rfl
  | .obj ((k, v) :: fields) =>
      simp only [write, Quoting.quote, List.length_cons, List.length_append] at hfuel
      obtain ⟨fuel, rfl⟩ : ∃ k, fuel = k + 1 := ⟨fuel - 1, by omega⟩
      have hv := parseValue_write v fuel _ (by omega) (ends_writeFields q fields rest)
      have hfields := parseFields_write fields (fuel + 1) rest (by omega)
      rw [write, List.cons_append, List.append_assoc, List.cons_append, List.append_assoc]
      exact parseValue_obj q (parseMember_quote q k hv) hfields
theorem parseElements_write (vs : List (Value σ)) (fuel : Nat) (rest : List Char)
    (hfuel : (writeElements q vs).length < fuel) :
    parseElements fuel (writeElements q vs ++ rest) = some (Value.mapElements q.units vs, rest) := by
  obtain ⟨fuel, rfl⟩ : ∃ k, fuel = k + 1 := ⟨fuel - 1, by omega⟩
  match vs with
  | [] => rfl
  | v :: vs =>
      simp only [writeElements, List.length_cons, List.length_append] at hfuel
      have hv := parseValue_write v fuel _ (by omega) (ends_writeElements q vs rest)
      have hvs := parseElements_write vs fuel rest (by omega)
      rw [writeElements, List.cons_append, List.append_assoc, parseElements,
        skipSpace_cons (by decide)]
      simp only [hv, hvs]
      rfl
theorem parseFields_write (fields : List (σ × Value σ)) (fuel : Nat) (rest : List Char)
    (hfuel : (writeFields q fields).length < fuel) :
    parseFields fuel (writeFields q fields ++ rest) = some (Value.mapFields q.units fields, rest) := by
  obtain ⟨fuel, rfl⟩ : ∃ k, fuel = k + 1 := ⟨fuel - 1, by omega⟩
  match fields with
  | [] => rfl
  | (k, v) :: fields =>
      simp only [writeFields, Quoting.quote, List.length_cons, List.length_append] at hfuel
      obtain ⟨fuel, rfl⟩ : ∃ k, fuel = k + 1 := ⟨fuel - 1, by omega⟩
      have hv := parseValue_write v fuel _ (by omega) (ends_writeFields q fields rest)
      have hfields := parseFields_write fields (fuel + 1) rest (by omega)
      rw [writeFields, List.cons_append, List.append_assoc, List.cons_append, List.append_assoc,
        parseFields, skipSpace_cons (by decide)]
      simp only [parseMember_quote q k hv, hfields]
      rfl
end

/-- **A written value is read back.** -/
theorem parse_write (v : Value σ) : parse (write q v) = some (v.map q.units) := by
  have h := parseValue_write q v ((write q v).length + 1) [] (by omega)
    (fun c hc => by cases hc)
  rw [List.append_nil] at h
  rw [parse, h]
  rfl

end Json
