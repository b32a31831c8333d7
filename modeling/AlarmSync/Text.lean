import Mathlib.Data.List.DropRight
import Mathlib.Data.List.TakeWhile
import Mathlib.Data.String.Basic

/-! The string operations of the Rust standard library that the program uses,
on the characters of a text. -/
namespace RustText

/-- `str::split_once`: around the first `c`. -/
def splitOnce (c : Char) (s : String) : Option (String × String) :=
  match s.toList.dropWhile (· ≠ c) with
  | [] => none
  | _ :: rest => some (.ofList (s.toList.takeWhile (· ≠ c)), .ofList rest)

/-- `str::rsplit_once`: around the last `c`. -/
def rsplitOnce (c : Char) (s : String) : Option (String × String) :=
  match s.toList.reverse.dropWhile (· ≠ c) with
  | [] => none
  | _ :: rest => some (.ofList rest.reverse, .ofList (s.toList.reverse.takeWhile (· ≠ c)).reverse)

def endsWith (s suffix : String) : Bool := suffix.toList.isSuffixOf s.toList

def stripSuffix (s suffix : String) : Option String :=
  if endsWith s suffix then
    some (.ofList (s.toList.take (s.toList.length - suffix.toList.length)))
  else none

def toAsciiUppercase (s : String) : String := .ofList (s.toList.map Char.toUpper)

/-- `str::split` at a character: at least one part. -/
def split (c : Char) (s : String) : List String := (s.toList.splitOn c).map .ofList

/-- `char::is_whitespace`: the Unicode property `White_Space`. -/
def isWhitespace (c : Char) : Bool :=
  (9 ≤ c.toNat && c.toNat ≤ 13) || c.toNat = 0x20 || c.toNat = 0x85 || c.toNat = 0xA0 ||
    c.toNat = 0x1680 || (0x2000 ≤ c.toNat && c.toNat ≤ 0x200A) || c.toNat = 0x2028 ||
    c.toNat = 0x2029 || c.toNat = 0x202F || c.toNat = 0x205F || c.toNat = 0x3000

def trim (s : String) : String :=
  .ofList ((s.toList.dropWhile isWhitespace).rdropWhile isWhitespace)

theorem dropWhile_ne_append {c : Char} {xs : List Char} (free : c ∉ xs) (ys : List Char) :
    (xs ++ c :: ys).dropWhile (· ≠ c) = c :: ys := by
  induction xs with
  | nil => simp
  | cons x xs ih =>
      have hx : x ≠ c := fun h => free (h ▸ List.mem_cons_self)
      simpa [hx] using ih fun h => free (List.mem_cons_of_mem x h)

theorem takeWhile_ne_append {c : Char} {xs : List Char} (free : c ∉ xs) (ys : List Char) :
    (xs ++ c :: ys).takeWhile (· ≠ c) = xs := by
  induction xs with
  | nil => simp
  | cons x xs ih =>
      have hx : x ≠ c := fun h => free (h ▸ List.mem_cons_self)
      simpa [hx] using ih fun h => free (List.mem_cons_of_mem x h)

theorem splitOnce_append {c : Char} {a : String} (free : c ∉ a.toList) (b : String) :
    splitOnce c (a ++ String.singleton c ++ b) = some (a, b) := by
  have split : (a ++ String.singleton c ++ b).toList = a.toList ++ c :: b.toList := by simp
  simp only [splitOnce, split, dropWhile_ne_append free, takeWhile_ne_append free,
    String.ofList_toList]

theorem splitOnce_eq_none_iff {c : Char} {s : String} : splitOnce c s = none ↔ c ∉ s.toList := by
  have empty : s.toList.dropWhile (· ≠ c) = [] ↔ c ∉ s.toList := by
    rw [List.dropWhile_eq_nil_iff]
    simp only [ne_eq, decide_not, Bool.not_eq_true', decide_eq_false_iff_not]
    exact ⟨fun all member => all c member rfl, fun free x member same => free (same ▸ member)⟩
  rw [← empty, splitOnce]
  cases s.toList.dropWhile (· ≠ c) <;> simp

theorem splitOnce_eq_some_iff {c : Char} {s a b : String} :
    splitOnce c s = some (a, b) ↔ s = a ++ String.singleton c ++ b ∧ c ∉ a.toList := by
  constructor
  · intro split
    have member : c ∈ s.toList := by
      by_contra free
      rw [splitOnce_eq_none_iff.mpr free] at split
      cases split
    obtain ⟨front, rest, text, free⟩ := List.eq_append_cons_of_mem member
    have text' : s = .ofList front ++ String.singleton c ++ .ofList rest := by
      rw [← String.toList_inj, text]
      simp
    rw [text', splitOnce_append (by simpa using free)] at split
    cases split
    exact ⟨text', by simpa using free⟩
  · rintro ⟨rfl, free⟩
    exact splitOnce_append free b

theorem rsplitOnce_append {c : Char} (a : String) {b : String} (free : c ∉ b.toList) :
    rsplitOnce c (a ++ String.singleton c ++ b) = some (a, b) := by
  have split : (a ++ String.singleton c ++ b).toList.reverse =
      b.toList.reverse ++ c :: a.toList.reverse := by simp
  have free' : c ∉ b.toList.reverse := by simpa using free
  simp only [rsplitOnce, split, dropWhile_ne_append free', takeWhile_ne_append free',
    List.reverse_reverse, String.ofList_toList]

theorem rsplitOnce_eq_none_iff {c : Char} {s : String} : rsplitOnce c s = none ↔ c ∉ s.toList := by
  have mirror := splitOnce_eq_none_iff (c := c) (s := .ofList s.toList.reverse)
  simp only [splitOnce, String.toList_ofList, List.mem_reverse] at mirror
  rw [← mirror, rsplitOnce]
  cases s.toList.reverse.dropWhile (· ≠ c) <;> simp

theorem rsplitOnce_eq_some_iff {c : Char} {s a b : String} :
    rsplitOnce c s = some (a, b) ↔ s = a ++ String.singleton c ++ b ∧ c ∉ b.toList := by
  constructor
  · intro split
    have member : c ∈ s.toList.reverse := by
      by_contra free
      rw [rsplitOnce_eq_none_iff.mpr (by simpa using free)] at split
      cases split
    obtain ⟨rest, front, text, free⟩ := List.eq_append_cons_of_mem member
    have text' : s = .ofList front.reverse ++ String.singleton c ++ .ofList rest.reverse := by
      rw [← String.toList_inj, ← List.reverse_inj, text]
      simp
    rw [text', rsplitOnce_append _ (by simpa using free)] at split
    cases split
    exact ⟨text', by simpa using free⟩
  · rintro ⟨rfl, free⟩
    exact rsplitOnce_append a free

theorem endsWith_iff {s suffix : String} : endsWith s suffix = true ↔
    ∃ front, s = front ++ suffix := by
  rw [endsWith, List.isSuffixOf_iff_suffix]
  constructor
  · rintro ⟨front, text⟩
    refine ⟨.ofList front, ?_⟩
    rw [← String.toList_inj, ← text]
    simp
  · rintro ⟨front, rfl⟩
    exact ⟨front.toList, by simp⟩

theorem stripSuffix_append (s suffix : String) : stripSuffix (s ++ suffix) suffix = some s := by
  have ends : endsWith (s ++ suffix) suffix = true := endsWith_iff.mpr ⟨s, rfl⟩
  simp [stripSuffix, ends]

theorem stripSuffix_eq_none {s suffix : String} (other : endsWith s suffix = false) :
    stripSuffix s suffix = none := by
  simp [stripSuffix, other]

/-- Texts joined by a character. -/
def join (c : Char) (parts : List String) : String :=
  .ofList ([c].intercalate (parts.map String.toList))

theorem not_mem_of_mem_splitOn {c : Char} {xs part : List Char}
    (member : part ∈ xs.splitOn c) : c ∉ part := by
  induction xs generalizing part with
  | nil =>
      rw [List.splitOn_nil, List.mem_singleton] at member
      simp [member]
  | cons x xs ih =>
      rw [List.splitOn_cons_eq_if_modifyHead] at member
      split_ifs at member with same
      · rcases List.mem_cons.mp member with rfl | later
        · simp
        · exact ih later
      · cases parts : xs.splitOn c with
        | nil => exact absurd parts (List.splitOn_ne_nil c xs)
        | cons first rest =>
            rw [parts, List.modifyHead_cons, List.mem_cons] at member
            rcases member with rfl | later
            · have free : c ∉ first := ih (by simp [parts])
              rintro (_ | ⟨_, later⟩)
              · simp at same
              · exact free later
            · exact ih (by simp [parts, later])

/-- The parts of a text are those that join to it, none with the character in it. -/
theorem split_eq_iff {c : Char} {s : String} {parts : List String} :
    split c s = parts ↔ s = join c parts ∧ parts ≠ [] ∧ ∀ part ∈ parts, c ∉ part.toList := by
  constructor
  · rintro rfl
    refine ⟨?_, by simp [split], ?_⟩
    · simp [split, join, Function.comp_def, List.intercalate_splitOn]
    · intro part member
      obtain ⟨chars, member', rfl⟩ := List.mem_map.mp member
      simpa using not_mem_of_mem_splitOn member'
  · rintro ⟨rfl, some', free⟩
    have free' : ∀ chars ∈ parts.map String.toList, c ∉ chars := by
      intro chars member
      obtain ⟨part, member', rfl⟩ := List.mem_map.mp member
      exact free part member'
    simp [split, join, List.splitOn_intercalate c free' (by simpa using some'), Function.comp_def]

/-- Neither begins nor ends in white space. -/
def Trimmed (s : String) : Prop :=
  (∀ c ∈ s.toList.head?, isWhitespace c = false) ∧ ∀ c ∈ s.toList.getLast?, isWhitespace c = false

def Blank (s : String) : Prop := ∀ c ∈ s.toList, isWhitespace c = true

theorem trim_trimmed (s : String) : Trimmed (trim s) := by
  refine ⟨?_, ?_⟩
  · intro c first
    obtain ⟨after, text⟩ := List.rdropWhile_prefix isWhitespace (s.toList.dropWhile isWhitespace)
    rw [trim, String.toList_ofList] at first
    have dropped : (s.toList.dropWhile isWhitespace).head? = some c := by
      rw [← text, List.head?_append, Option.mem_def.mp first]
      rfl
    have not := List.head?_dropWhile_not isWhitespace s.toList
    rw [dropped] at not
    exact not
  · intro c last
    rw [trim, String.toList_ofList] at last
    obtain ⟨some', rfl⟩ := List.mem_getLast?_eq_getLast last
    simpa using List.rdropWhile_last_not isWhitespace _ some'

/-- White space around a text is what trimming takes away. -/
theorem trim_eq_iff {s t : String} : trim s = t ↔ Trimmed t ∧ ∃ a b, Blank a ∧ Blank b ∧
    s = a ++ t ++ b := by
  constructor
  · rintro rfl
    refine ⟨trim_trimmed s, .ofList (s.toList.takeWhile isWhitespace),
      .ofList ((s.toList.dropWhile isWhitespace).rtakeWhile isWhitespace), ?_, ?_, ?_⟩
    · intro c member
      exact List.mem_takeWhile_imp (String.toList_ofList ▸ member)
    · intro c member
      exact List.mem_rtakeWhile_imp (String.toList_ofList ▸ member)
    · rw [← String.toList_inj]
      simp [trim, List.append_assoc, List.rdropWhile_append_rtakeWhile]
  · rintro ⟨⟨first, last⟩, a, b, before, after, rfl⟩
    have before' : (a ++ t ++ b).toList.dropWhile isWhitespace =
      (t.toList ++ b.toList).dropWhile isWhitespace := by
      rw [String.toList_append, String.toList_append, List.append_assoc,
        List.dropWhile_append_of_pos before]
    rw [trim, before', ← String.toList_inj, String.toList_ofList]
    cases chars : t.toList with
    | nil => simp [List.dropWhile_eq_nil_iff.mpr after]
    | cons x rest =>
        have kept : isWhitespace x = false := first x (by simp [chars])
        rw [List.cons_append, List.dropWhile_cons_of_neg (by simp [kept]),
          ← List.cons_append, ← chars, List.rdropWhile, List.reverse_append,
          List.dropWhile_append_of_pos fun c member => after c (List.mem_reverse.mp member),
          ← List.rdropWhile, List.rdropWhile_eq_self_iff]
        intro some'
        simp [last _ (List.getLast_mem_getLast? some')]

end RustText
