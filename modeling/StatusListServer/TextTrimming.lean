import Mathlib.Data.List.TakeWhile

/-!
# Trimming text

`str::trim` and `str::trim_matches` on lists of characters.  What is taken off
the two ends of a text is a run of characters of one kind; `str::trim` takes off
the characters with the Unicode property `White_Space`.
-/

namespace TextTrimming

/-- The characters with the Unicode property `White_Space`. -/
def isWhitespace (c : Char) : Bool :=
  (9 ≤ c.toNat && c.toNat ≤ 13) || c.toNat = 0x20 || c.toNat = 0x85 || c.toNat = 0xA0 ||
    c.toNat = 0x1680 || (0x2000 ≤ c.toNat && c.toNat ≤ 0x200A) || c.toNat = 0x2028 ||
    c.toNat = 0x2029 || c.toNat = 0x202F || c.toNat = 0x205F || c.toNat = 0x3000

/-- `str::trim_matches`. -/
def trimMatches (p : Char → Bool) (cs : List Char) : List Char :=
  ((cs.dropWhile p).reverse.dropWhile p).reverse

/-- `str::trim` on characters. -/
def trim (cs : List Char) : List Char := trimMatches isWhitespace cs

/-- `str::trim`. -/
def trimText (text : String) : String := String.ofList (trim text.toList)

/-- Below 127 only blanks and controls are whitespace. -/
theorem isWhitespace_of_ascii {c : Char} (hlow : 32 < c.toNat) (hhigh : c.toNat < 127) :
    isWhitespace c = false := by
  simp only [isWhitespace, Bool.or_eq_false_iff, Bool.and_eq_false_iff, decide_eq_false_iff_not]
  omega

variable {p : Char → Bool} {cs : List Char}

theorem dropWhile_eq_self (h : ∀ c ∈ cs.head?, p c = false) : cs.dropWhile p = cs := by
  cases cs with
  | nil => rfl
  | cons c cs => simp [h c rfl]

/-- Nothing is trimmed off a text whose first and last characters stay. -/
theorem trimMatches_eq_self (hhead : ∀ c ∈ cs.head?, p c = false)
    (hlast : ∀ c ∈ cs.getLast?, p c = false) : trimMatches p cs = cs := by
  have hreverse : cs.reverse.dropWhile p = cs.reverse := by
    apply dropWhile_eq_self
    rwa [List.head?_reverse]
  rw [trimMatches, dropWhile_eq_self hhead, hreverse, List.reverse_reverse]

/-- What is around a text is trimmed off with what is at its ends. -/
theorem trimMatches_padded {a b : List Char} (ha : ∀ c ∈ a, p c = true)
    (hb : ∀ c ∈ b, p c = true) : trimMatches p (a ++ cs ++ b) = trimMatches p cs := by
  have hb' : b.dropWhile p = [] := by
    rw [List.dropWhile_eq_nil_iff]
    exact hb
  rw [trimMatches, trimMatches, List.append_assoc, List.dropWhile_append_of_pos ha,
    List.dropWhile_append]
  cases hrest : cs.dropWhile p with
  | nil => simp [hb']
  | cons c rest =>
      have hreverse : ∀ d ∈ b.reverse, p d = true := fun d hd => hb d (List.mem_reverse.mp hd)
      rw [List.isEmpty_cons, if_neg Bool.false_ne_true, List.reverse_append,
        List.dropWhile_append_of_pos hreverse]

/-- Marks around a text without such marks are trimmed off. -/
theorem trimMatches_marks {q : Char} {a b : List Char} (ha : ∀ c ∈ a, c = q)
    (hb : ∀ c ∈ b, c = q) (hcs : q ∉ cs) : trimMatches (· == q) (a ++ cs ++ b) = cs := by
  have hplain : ∀ c ∈ cs, (c == q) = false := by
    intro c hc
    rw [beq_eq_false_iff_ne]
    exact fun heq => hcs (heq ▸ hc)
  rw [trimMatches_padded (fun c hc => by simp [ha c hc]) (fun c hc => by simp [hb c hc])]
  exact trimMatches_eq_self (fun c hc => hplain c (List.mem_of_mem_head? hc))
    (fun c hc => hplain c (List.mem_of_mem_getLast? hc))

end TextTrimming
