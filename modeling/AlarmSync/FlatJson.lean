import Mathlib.Data.List.Basic
import Mathlib.Data.String.Basic

/-! Flat JSON objects: members whose values are null, a Boolean or a text. A compact
writer, its reader, and their round trip. -/
namespace FlatJson

inductive Scalar where
  | null
  | bool (b : Bool)
  | string (s : String)
  deriving DecidableEq, Repr

abbrev Member := String × Scalar

def quote : Char := '\x22'
def backslash : Char := '\\'
def opening : Char := '\x7b'
def closing : Char := '\x7d'

def escape : List Char → List Char
  | [] => []
  | c :: cs => if c = quote ∨ c = backslash then backslash :: c :: escape cs else c :: escape cs

def quoted (s : String) : List Char := quote :: (escape s.toList ++ [quote])

def writeScalar : Scalar → List Char
  | .null => "null".toList
  | .bool true => "true".toList
  | .bool false => "false".toList
  | .string s => quoted s

def writeMember (e : Member) : List Char := quoted e.1 ++ ':' :: writeScalar e.2

/-- The members after the first, each behind its comma, and the end of the object. -/
def writeRest : List Member → List Char
  | [] => [closing]
  | e :: rest => ',' :: (writeMember e ++ writeRest rest)

def write : List Member → String
  | [] => .ofList [opening, closing]
  | e :: rest => .ofList (opening :: (writeMember e ++ writeRest rest))

/-- A text up to its closing mark, and what follows. The flag is set behind a backslash. -/
def readQuoted : Bool → List Char → Option (List Char × List Char)
  | _, [] => none
  | true, c :: cs => (readQuoted false cs).map fun (text, rest) => (c :: text, rest)
  | false, c :: cs =>
    if c = quote then some ([], cs)
    else if c = backslash then readQuoted true cs
    else (readQuoted false cs).map fun (text, rest) => (c :: text, rest)

def readString : List Char → Option (String × List Char)
  | [] => none
  | c :: cs =>
    if c = quote then (readQuoted false cs).map fun (text, rest) => (.ofList text, rest)
    else none

def readScalar : List Char → Option (Scalar × List Char)
  | 'n' :: 'u' :: 'l' :: 'l' :: rest => some (.null, rest)
  | 't' :: 'r' :: 'u' :: 'e' :: rest => some (.bool true, rest)
  | 'f' :: 'a' :: 'l' :: 's' :: 'e' :: rest => some (.bool false, rest)
  | cs => (readString cs).map fun (s, rest) => (.string s, rest)

def readMember (cs : List Char) : Option (Member × List Char) :=
  match readString cs with
  | some (k, ':' :: rest) => (readScalar rest).map fun (v, rest) => ((k, v), rest)
  | _ => none

/-- The fuel bounds the number of members. -/
def readRest : Nat → List Char → Option (List Member)
  | 0, _ => none
  | fuel + 1, ',' :: cs =>
    match readMember cs with
    | some (e, rest) => (readRest fuel rest).map (e :: ·)
    | none => none
  | _ + 1, [c] => if c = closing then some [] else none
  | _ + 1, _ => none

def read (text : String) : Option (List Member) :=
  match text.toList with
  | [] => none
  | c :: cs =>
    if c ≠ opening then none
    else if cs = [closing] then some []
    else
      match readMember cs with
      | some (e, rest) => (readRest rest.length rest).map (e :: ·)
      | none => none

theorem readQuoted_escape (cs rest : List Char) :
    readQuoted false (escape cs ++ quote :: rest) = some (cs, rest) := by
  induction cs with
  | nil => simp [escape, readQuoted]
  | cons c cs ih =>
      have marks : backslash ≠ quote := by decide
      by_cases special : c = quote ∨ c = backslash
      · simp [escape, special, readQuoted, marks, ih]
      · obtain ⟨notQuote, notBackslash⟩ := not_or.mp special
        simp [escape, readQuoted, notQuote, notBackslash, ih]

theorem readString_quoted (s : String) (rest : List Char) :
    readString (quoted s ++ rest) = some (s, rest) := by
  have body : quoted s ++ rest = quote :: (escape s.toList ++ quote :: rest) := by simp [quoted]
  simp [body, readString, readQuoted_escape]

theorem readScalar_write (v : Scalar) (rest : List Char) :
    readScalar (writeScalar v ++ rest) = some (v, rest) := by
  cases v with
  | null => rfl
  | bool b => cases b <;> rfl
  | string s =>
      have start : writeScalar (.string s) ++ rest = quoted s ++ rest := rfl
      have fallback : readScalar (quoted s ++ rest) =
          (readString (quoted s ++ rest)).map fun (s, rest) => (.string s, rest) := by
        rfl
      rw [start, fallback, readString_quoted]
      rfl

theorem readMember_write (e : Member) (rest : List Char) :
    readMember (writeMember e ++ rest) = some (e, rest) := by
  have body : writeMember e ++ rest = quoted e.1 ++ ':' :: (writeScalar e.2 ++ rest) := by
    simp [writeMember]
  simp only [readMember, body, readString_quoted, readScalar_write, Option.map_some]

theorem readRest_write (members : List Member) {fuel : Nat} (enough : members.length < fuel) :
    readRest fuel (writeRest members) = some members := by
  induction members generalizing fuel with
  | nil =>
      obtain ⟨fuel, rfl⟩ := Nat.exists_eq_succ_of_ne_zero (Nat.ne_of_gt enough)
      rfl
  | cons e rest ih =>
      obtain ⟨fuel, rfl⟩ := Nat.exists_eq_succ_of_ne_zero (Nat.ne_of_gt (Nat.zero_lt_of_lt enough))
      have fewer : rest.length < fuel := by simpa using enough
      simp only [writeRest, readRest, readMember_write, ih fewer, Option.map_some]

theorem length_lt_writeRest (members : List Member) :
    members.length < (writeRest members).length := by
  induction members with
  | nil => decide
  | cons e rest ih =>
      simp only [writeRest, List.length_cons, List.length_append]
      omega

/-- Reading back what was written gives the members, repeated names and their order included. -/
theorem read_write (members : List Member) : read (write members) = some members := by
  cases members with
  | nil => rfl
  | cons e rest =>
      have notClosed : writeMember e ++ writeRest rest ≠ [closing] := by
        simp [writeMember, quoted]
      simp only [write, read, String.toList_ofList, ne_eq, not_true_eq_false, if_false, notClosed,
        readMember_write, readRest_write rest (length_lt_writeRest rest), Option.map_some]

end FlatJson
