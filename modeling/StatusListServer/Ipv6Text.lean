import Mathlib.Data.List.Basic

/-!
# The text form of an IPv6 address

The reader of Rust's standard library, `core::net::parser`: eight groups of up to four
hexadecimal digits, one run of zero groups left out as `::`, and an IPv4 address in
place of the last two groups.  A part that cannot be read leaves the text as it was, so
each reader is a function of the text that gives what it read and the text after it.

What is read is made of hexadecimal digits, colons and dots only.
-/

namespace Ipv6

/-- `char::to_digit`. -/
def toDigit (radix : Nat) (c : Char) : Option Nat :=
  let value :=
    if '0' ≤ c ∧ c ≤ '9' then some (c.toNat - 48)
    else if 'a' ≤ c ∧ c ≤ 'z' then some (c.toNat - 87)
    else if 'A' ≤ c ∧ c ≤ 'Z' then some (c.toNat - 55)
    else none
  value.filter (· < radix)

/-- `Parser::read_given_char`. -/
def readGivenChar (target : Char) : List Char → Option (List Char)
  | [] => none
  | c :: rest => if c = target then some rest else none

/-- All but the first of some parts stand behind a separator. -/
def readSeparator {α : Type} (sep : Char) (index : Nat)
    (inner : List Char → Option (α × List Char)) (cs : List Char) : Option (α × List Char) :=
  if 0 < index then (readGivenChar sep cs).bind inner else inner cs

/-- The loop of `read_number`: the value of the digits, how many there are and the text
after them; none when there are more than `maxDigits`. -/
def readDigits (radix maxDigits : Nat) : Nat → Nat → List Char → Option (Nat × Nat × List Char)
  | result, count, [] => some (result, count, [])
  | result, count, c :: rest =>
      match toDigit radix c with
      | none => some (result, count, c :: rest)
      | some digit =>
          if maxDigits < count + 1 then none
          else readDigits radix maxDigits (result * radix + digit) (count + 1) rest

/-- `Parser::read_number`. -/
def readNumber (radix maxDigits bound : Nat) (allowZeroPrefix : Bool) (cs : List Char) :
    Option (Nat × List Char) := do
  let (result, count, rest) ← readDigits radix maxDigits 0 0 cs
  if count = 0 then none
  else if !allowZeroPrefix && cs.head? == some '0' && 1 < count then none
  else if result < bound then some (result, rest)
  else none

/-- A decimal part of an IPv4 address. -/
def readOctet : List Char → Option (Nat × List Char) := readNumber 10 3 256 false

/-- A hexadecimal group of an IPv6 address. -/
def readGroup : List Char → Option (Nat × List Char) := readNumber 16 4 65536 true

/-- The two groups that an IPv4 address stands for. -/
def readIpv4Addr (cs : List Char) : Option ((Nat × Nat) × List Char) := do
  let (one, cs) ← readSeparator '.' 0 readOctet cs
  let (two, cs) ← readSeparator '.' 1 readOctet cs
  let (three, cs) ← readSeparator '.' 2 readOctet cs
  let (four, cs) ← readSeparator '.' 3 readOctet cs
  return ((256 * one + two, 256 * three + four), cs)

/-- Groups behind colons, `slots` of them at most, the `index` before them read
already; and whether they end in an IPv4 address, which takes two slots. -/
def readGroups : (slots index : Nat) → List Char → List Nat × Bool × List Char
  | 0, _, cs => ([], false, cs)
  | slots + 1, index, cs =>
      let ipv4 := if 0 < slots then readSeparator ':' index readIpv4Addr cs else none
      match ipv4 with
      | some ((high, low), rest) => ([high, low], true, rest)
      | none =>
          match readSeparator ':' index readGroup cs with
          | some (group, rest) =>
              let (groups, ipv4, rest) := readGroups slots (index + 1) rest
              (group :: groups, ipv4, rest)
          | none => ([], false, cs)

/-- `Parser::read_ipv6_addr`. -/
def readIpv6Addr (cs : List Char) : Option (List Nat × List Char) :=
  let (head, headIpv4, rest) := readGroups 8 0 cs
  if head.length = 8 then some (head, rest)
  else if headIpv4 then none
  else do
    let rest ← readGivenChar ':' rest
    let rest ← readGivenChar ':' rest
    let (tail, _, rest) := readGroups (8 - (head.length + 1)) 0 rest
    return (head ++ List.replicate (8 - head.length - tail.length) 0 ++ tail, rest)

/-- `Ipv6Addr::from_str`: the groups of an address that takes up the whole text. -/
def parse (cs : List Char) : Option (List Nat) :=
  match readIpv6Addr cs with
  | some (groups, []) => some groups
  | _ => none

example : parse "fd00::1".toList = some [0xfd00, 0, 0, 0, 0, 0, 0, 1] := by decide

example : parse "::ffff:10.0.0.1".toList = some [0, 0, 0, 0, 0, 0xffff, 0x0a00, 1] := by decide

example : parse "1:2:3:4:5:6:7".toList = none := by decide

/-! ## What is read -/

/-- The characters of an address. -/
def IsAddressChar (c : Char) : Prop := c = ':' ∨ c = '.' ∨ (toDigit 16 c).isSome

instance (c : Char) : Decidable (IsAddressChar c) := inferInstanceAs (Decidable (_ ∨ _))

/-- `rest` is what remains of `cs` after characters of an address. -/
def Reads (cs rest : List Char) : Prop := ∃ front, cs = front ++ rest ∧ ∀ c ∈ front, IsAddressChar c

/-- Nothing may be read. -/
theorem Reads.refl (cs : List Char) : Reads cs cs := ⟨[], rfl, by simp⟩

/-- Two readings, one after the other. -/
theorem Reads.trans {a b c : List Char} (hab : Reads a b) (hbc : Reads b c) : Reads a c := by
  obtain ⟨front, rfl, hfront⟩ := hab
  obtain ⟨middle, rfl, hmiddle⟩ := hbc
  refine ⟨front ++ middle, (List.append_assoc _ _ _).symm, fun c hc => ?_⟩
  rcases List.mem_append.mp hc with hc | hc
  · exact hfront c hc
  · exact hmiddle c hc

/-- One character is read. -/
theorem Reads.cons {c : Char} (h : IsAddressChar c) (rest : List Char) : Reads (c :: rest) rest :=
  ⟨[c], rfl, by simpa using h⟩

/-- A reader reads only characters of an address. -/
def Sound {α : Type} (read : List Char → Option (α × List Char)) : Prop :=
  ∀ {cs a rest}, read cs = some (a, rest) → Reads cs rest

/-- A given character reads only itself. -/
theorem reads_readGivenChar {target : Char} (h : IsAddressChar target) {cs rest : List Char}
    (hread : readGivenChar target cs = some rest) : Reads cs rest := by
  cases cs with
  | nil => simp [readGivenChar] at hread
  | cons c cs =>
      simp only [readGivenChar] at hread
      split at hread
      · next hc =>
          subst hc
          cases hread
          exact .cons h _
      · cases hread

/-- A separated part reads the separator and the part. -/
theorem sound_readSeparator {α : Type} {sep : Char} (h : IsAddressChar sep) (index : Nat)
    {inner : List Char → Option (α × List Char)} (hinner : Sound inner) :
    Sound (readSeparator sep index inner) := by
  intro cs a rest hread
  unfold readSeparator at hread
  split at hread
  · obtain ⟨middle, hsep, hrest⟩ := Option.bind_eq_some_iff.mp hread
    exact (reads_readGivenChar h hsep).trans (hinner hrest)
  · exact hinner hread

/-- A digit of a smaller radix is a hexadecimal digit. -/
theorem isAddressChar_of_toDigit {radix : Nat} (h : radix ≤ 16) {c : Char} {digit : Nat}
    (hdigit : toDigit radix c = some digit) : IsAddressChar c := by
  refine .inr (.inr ?_)
  unfold toDigit at hdigit ⊢
  obtain ⟨hvalue, hlt⟩ := Option.filter_eq_some_iff.mp hdigit
  have hlt : digit < 16 := Nat.lt_of_lt_of_le (of_decide_eq_true hlt) h
  simp only [hvalue, Option.filter_some, hlt, decide_true, if_true, Option.isSome_some]

/-- Digits up to base 16 are characters of an address. -/
theorem reads_readDigits {radix maxDigits : Nat} (h : radix ≤ 16) {result count : Nat}
    {cs : List Char} {result' count' : Nat} {rest : List Char}
    (hread : readDigits radix maxDigits result count cs = some (result', count', rest)) :
    Reads cs rest := by
  induction cs generalizing result count with
  | nil =>
      cases hread
      exact .refl _
  | cons c cs ih =>
      rw [readDigits] at hread
      split at hread
      · cases hread
        exact .refl _
      · next digit hdigit =>
          split at hread
          · cases hread
          · exact (Reads.cons (isAddressChar_of_toDigit h hdigit) cs).trans (ih hread)

/-- A number reads its digits only. -/
theorem sound_readNumber {radix maxDigits bound : Nat} (h : radix ≤ 16) (allowZeroPrefix : Bool) :
    Sound (readNumber radix maxDigits bound allowZeroPrefix) := by
  intro cs a rest hread
  obtain ⟨⟨result, count, rest'⟩, hdigits, hread⟩ := Option.bind_eq_some_iff.mp hread
  have hreads := reads_readDigits h hdigits
  dsimp only at hread
  split at hread
  · cases hread
  · split at hread
    · cases hread
    · split at hread
      · cases hread
        exact hreads
      · cases hread

/-- A decimal part reads characters of an address. -/
theorem sound_readOctet : Sound readOctet := sound_readNumber (by decide) false

/-- A hexadecimal group reads characters of an address. -/
theorem sound_readGroup : Sound readGroup := sound_readNumber (by decide) true

/-- An IPv4 address reads characters of an address. -/
theorem sound_readIpv4Addr : Sound readIpv4Addr := by
  intro cs a rest hread
  have hdot (index : Nat) : Sound (readSeparator '.' index readOctet) :=
    sound_readSeparator (by decide) index sound_readOctet
  obtain ⟨⟨one, cs₁⟩, hone, hread⟩ := Option.bind_eq_some_iff.mp hread
  obtain ⟨⟨two, cs₂⟩, htwo, hread⟩ := Option.bind_eq_some_iff.mp hread
  obtain ⟨⟨three, cs₃⟩, hthree, hread⟩ := Option.bind_eq_some_iff.mp hread
  obtain ⟨⟨four, cs₄⟩, hfour, hread⟩ := Option.bind_eq_some_iff.mp hread
  cases hread
  exact (((hdot 0 hone).trans (hdot 1 htwo)).trans (hdot 2 hthree)).trans (hdot 3 hfour)

/-- So do the groups, by induction on how many may come. -/
theorem reads_readGroups (slots index : Nat) (cs : List Char) :
    Reads cs (readGroups slots index cs).2.2 := by
  induction slots generalizing index cs with
  | zero => exact .refl _
  | succ slots ih =>
      have hcolon : IsAddressChar ':' := by decide
      rw [readGroups]
      split
      · next high low rest hipv4 =>
          split at hipv4
          · exact sound_readSeparator hcolon index sound_readIpv4Addr hipv4
          · cases hipv4
      · split
        · next group rest hgroup =>
            exact (sound_readSeparator hcolon index sound_readGroup hgroup).trans (ih _ rest)
        · exact .refl _

/-- An IPv6 address reads characters of an address only. -/
theorem sound_readIpv6Addr : Sound readIpv6Addr := by
  intro cs a rest hread
  have hhead := reads_readGroups 8 0 cs
  have hcolon : IsAddressChar ':' := by decide
  unfold readIpv6Addr at hread
  dsimp only at hread
  split at hread
  · cases hread
    exact hhead
  · split at hread
    · cases hread
    · obtain ⟨rest₁, hfirst, hread⟩ := Option.bind_eq_some_iff.mp hread
      obtain ⟨rest₂, hsecond, hread⟩ := Option.bind_eq_some_iff.mp hread
      cases hread
      exact ((hhead.trans (reads_readGivenChar hcolon hfirst)).trans
        (reads_readGivenChar hcolon hsecond)).trans (reads_readGroups _ 0 rest₂)

/-- **An address has no other characters.** -/
theorem isAddressChar_of_parse {cs : List Char} {groups : List Nat} (h : parse cs = some groups) :
    ∀ c ∈ cs, IsAddressChar c := by
  unfold parse at h
  split at h
  · next hread =>
      obtain ⟨front, hcs, hfront⟩ := sound_readIpv6Addr hread
      rw [List.append_nil] at hcs
      subst hcs
      exact hfront
  · cases h

end Ipv6
