import Mathlib.Algebra.Order.Field.Rat
import Mathlib.Tactic.Positivity
import StatusListServer.ConditionalGet
import StatusListServer.FieldLists

/-!
# The headers of a request

A header field may be sent in several lines.  `get_status_list` reads the first line
of `Accept`, `If-None-Match` and `If-Modified-Since`, and all lines of
`Accept-Encoding`; a line that is not visible ASCII reads as absent.

The second part compares `client_accepts_gzip` with the grammar of the field: it
follows it but for the spelling of the weight parameter, which it compares with
regard to case.
-/

namespace StatusListServer

open FieldLists TextTrimming

/-! ## Header values -/

/-- A header value, one character for each byte. -/
abbrev HeaderValue := List Char

/-- The characters that `HeaderValue::to_str` accepts. -/
def isVisibleAscii (c : Char) : Bool := (32 ≤ c.toNat && c.toNat < 127) || c == '\t'

/-- `HeaderValue::to_str`. -/
def toStr (value : HeaderValue) : Option (List Char) :=
  if value.all isVisibleAscii then some value else none

/-- The lines of the fields the handler reads, in the order they were sent. -/
structure HeaderMap where
  accept : List HeaderValue
  acceptEncoding : List HeaderValue
  ifNoneMatch : List HeaderValue
  ifModifiedSince : List HeaderValue

/-- `headers.get(name).and_then(|h| h.to_str().ok())`. -/
def headerText (values : List HeaderValue) : Option String :=
  (values.head?.bind toStr).map String.ofList

/-! ## Numbers -/

/-- A number read from a text: the decimal is exact, and rounded where it is
compared. -/
inductive F32
  | nan
  | infinity (negative : Bool)
  | decimal (negative : Bool) (mantissa : Nat) (exponent : Int)
deriving DecidableEq, Repr

/-- `v > 0.0`.  The nearest single-precision number to a positive decimal is zero
unless the decimal exceeds `2 ^ -150`. -/
def F32.gtZero : F32 → Bool
  | .nan => false
  | .infinity negative => !negative
  | .decimal negative mantissa exponent => !negative &&
      decide (10 ^ (-exponent).toNat < mantissa * 10 ^ exponent.toNat * 2 ^ 150)

/-- The sign of a number. -/
def splitSign : List Char → Bool × List Char
  | '-' :: rest => (true, rest)
  | '+' :: rest => (false, rest)
  | text => (false, text)

/-- The exponent after its letter. -/
def readExponent : List Char → Option Int
  | [] => some 0
  | c :: rest =>
      let (negative, digits) := splitSign rest
      if (c = 'e' ∨ c = 'E') ∧ digits ≠ [] ∧ digits.all Char.isDigit then
        let size : Int := Nat.ofDigitChars 10 digits 0
        some (if negative then -size else size)
      else none

/-- `str::parse::<f32>`. -/
def parseF32 (text : List Char) : Option F32 :=
  let (negative, number) := splitSign text
  let whole := number.takeWhile Char.isDigit
  let (decimals, rest) := match number.dropWhile Char.isDigit with
    | '.' :: rest => (rest.takeWhile Char.isDigit, rest.dropWhile Char.isDigit)
    | rest => ([], rest)
  if number.map Char.toLower = "nan".toList then some .nan
  else if number.map Char.toLower = "inf".toList ∨
      number.map Char.toLower = "infinity".toList then some (.infinity negative)
  else if whole = [] ∧ decimals = [] then none
  else (readExponent rest).map fun exponent =>
    .decimal negative (Nat.ofDigitChars 10 (whole ++ decimals) 0) (exponent - decimals.length)

/-! ## `Accept-Encoding` -/

/-- `str::eq_ignore_ascii_case`. -/
def eqIgnoreAsciiCase (a b : List Char) : Bool := a.map Char.toLower == b.map Char.toLower

/-- `str::split_once`. -/
def splitOnce (separator : Char) : List Char → Option (List Char × List Char)
  | [] => none
  | c :: cs =>
      if c = separator then some ([], cs)
      else (splitOnce separator cs).map fun parts => (c :: parts.1, parts.2)

/-- `str::strip_prefix("q=")`. -/
def stripWeightName : List Char → Option (List Char)
  | 'q' :: '=' :: rest => some rest
  | _ => none

/-- One piece of a line: a coding and the number of its weight. -/
def codingEntry (piece : List Char) : Option (List Char × Option F32) :=
  let s := trim piece
  if s.isEmpty then none
  else
    let (coding, params) := match splitOnce ';' s with
      | some (c, p) => (trim c, trim p)
      | none => (s, [])
    let q := ((params.splitOn ';').findSome? fun p => (stripWeightName (trim p)).map trim).bind
      parseF32
    some (coding, q)

/-- The codings of all lines that are text, with their weights. -/
def codingEntries (headers : HeaderMap) : List (List Char × Option F32) :=
  (headers.acceptEncoding.filterMap toStr).flatMap fun val =>
    (val.splitOn ',').filterMap codingEntry

/-- `client_accepts_gzip`. -/
def clientAcceptsGzip (headers : HeaderMap) : Bool :=
  let entries := codingEntries headers
  match entries.find? fun entry => eqIgnoreAsciiCase entry.1 "gzip".toList with
  | some (_, none) => true
  | some (_, some q) => q.gtZero
  | none => entries.any fun entry => eqIgnoreAsciiCase entry.1 "*".toList &&
      (entry.2.isNone || (entry.2.map F32.gtZero).getD false)

/-- What the handler reads of a request. -/
def GetRequest.ofHeaders (time : Option Int) (headers : HeaderMap) : GetRequest where
  time := time
  accept := headerText headers.accept
  ifNoneMatch := headerText headers.ifNoneMatch
  ifModifiedSince := headerText headers.ifModifiedSince
  clientAcceptsGzip := StatusListServer.clientAcceptsGzip headers

/-! ## Trimming -/

section Trimming

variable {cs : List Char}

/-- Blanks are whitespace. -/
theorem isWhitespace_of_isBlank {c : Char} (h : IsBlank c) : isWhitespace c = true := by
  rcases h with rfl | rfl <;> decide

/-- A text with visible ends, between blanks. -/
theorem trim_padded {a b : List Char} (ha : ∀ c ∈ a, IsBlank c) (hb : ∀ c ∈ b, IsBlank c)
    (hhead : ∀ c ∈ cs.head?, isWhitespace c = false)
    (hlast : ∀ c ∈ cs.getLast?, isWhitespace c = false) : trim (a ++ cs ++ b) = cs := by
  rw [trim, trimMatches_padded (fun c hc => isWhitespace_of_isBlank (ha c hc))
    (fun c hc => isWhitespace_of_isBlank (hb c hc))]
  exact trimMatches_eq_self hhead hlast

end Trimming

/-- Without a separator there is nothing to split. -/
theorem splitOnce_of_not_mem {separator : Char} {cs : List Char} (h : separator ∉ cs) :
    splitOnce separator cs = none := by
  induction cs with
  | nil => rfl
  | cons c cs ih =>
      have hc : c ≠ separator := fun heq => h (heq ▸ List.mem_cons_self)
      rw [splitOnce, if_neg hc, ih (fun hmem => h (List.mem_cons_of_mem _ hmem)), Option.map_none]

/-- A text is split at its first separator. -/
theorem splitOnce_append {separator : Char} {a : List Char} (h : separator ∉ a) (b : List Char) :
    splitOnce separator (a ++ separator :: b) = some (a, b) := by
  induction a with
  | nil => simp [splitOnce]
  | cons c a ih =>
      have hc : c ≠ separator := fun heq => h (heq ▸ List.mem_cons_self)
      rw [List.cons_append, splitOnce, if_neg hc,
        ih (fun hmem => h (List.mem_cons_of_mem _ hmem)), Option.map_some]

/-! ## The grammar of `Accept-Encoding` -/

/-- The characters of a token: visible ASCII without delimiters. -/
def IsTchar (c : Char) : Prop :=
  33 ≤ c.toNat ∧ c.toNat < 127 ∧
    c ∉ ['"', '(', ')', ',', '/', ':', ';', '<', '=', '>', '?', '@', '[', '\\', ']', '\x7b', '\x7d']

/-- A weight between zero and one, with up to three decimals. -/
structure Qvalue where
  whole : Char
  decimals : Option (List Char)
  whole_digit : whole = '0' ∨ whole = '1'
  decimals_digits : ∀ ds ∈ decimals, ds.length ≤ 3 ∧ ∀ c ∈ ds, c.isDigit

namespace Qvalue

variable (q : Qvalue)

/-- The weight as it is written. -/
def text : List Char := q.whole :: q.decimals.elim [] ('.' :: ·)

/-- The digits after the point. -/
def fraction : List Char := q.decimals.getD []

/-- The digits of the weight as a number. -/
def mantissa : Nat := Nat.ofDigitChars 10 (q.whole :: q.fraction) 0

/-- The number the text stands for. -/
def value : ℚ := q.mantissa / 10 ^ q.fraction.length

end Qvalue

/-- `;` and `q=` in either case, with optional whitespace around the semicolon. -/
structure Weight where
  before : List Char
  after : List Char
  upper : Bool
  qvalue : Qvalue
  before_blank : ∀ c ∈ before, IsBlank c
  after_blank : ∀ c ∈ after, IsBlank c

/-- The parameter after the semicolon. -/
def Weight.parameter (w : Weight) : List Char :=
  (if w.upper then 'Q' else 'q') :: '=' :: w.qvalue.text

/-- The weight with its parameter and blanks. -/
def Weight.text (w : Weight) : List Char := w.before ++ ';' :: (w.after ++ w.parameter)

/-- A coding, or `*`, with an optional weight. -/
structure Coding where
  name : List Char
  weight : Option Weight
  name_nonempty : name ≠ []
  name_token : ∀ c ∈ name, IsTchar c

/-- The coding with its weight. -/
def Coding.text (c : Coding) : List Char := c.name ++ c.weight.elim [] Weight.text

/-- The weight is absent or greater than zero. -/
def Coding.Acceptable (c : Coding) : Prop := ∀ w ∈ c.weight, 0 < w.qvalue.value

/-- The codings of a list. -/
def codings (elements : List (Element Coding)) : List Coding := elements.filterMap Element.item

/-- The name is the given one, in either case. -/
def Coding.Named (c : Coding) (name : String) : Prop :=
  c.name.map Char.toLower = name.toList.map Char.toLower

/-- The rule: `gzip` decides when it is listed, and `*` when it is not. -/
def GzipAcceptable (codings : List Coding) : Prop :=
  (∃ c ∈ codings, c.Named "gzip" ∧ c.Acceptable) ∨
    (∀ c ∈ codings, ¬ c.Named "gzip") ∧ ∃ c ∈ codings, c.Named "*" ∧ c.Acceptable

/-! ## Reading a list of codings -/

section Reading

/-- Token characters are visible. -/
theorem IsTchar.isVisibleAscii {c : Char} (h : IsTchar c) : isVisibleAscii c = true := by
  obtain ⟨hlow, hhigh, _⟩ := h
  have hlow' : 32 ≤ c.toNat := by omega
  simp [StatusListServer.isVisibleAscii, hlow', hhigh]

/-- No token character is whitespace. -/
theorem IsTchar.not_whitespace {c : Char} (h : IsTchar c) : isWhitespace c = false :=
  isWhitespace_of_ascii h.1 h.2.1

/-- No token character is a delimiter. -/
theorem IsTchar.ne_delimiter {c d : Char} (h : IsTchar c)
    (hd : d ∈ ['"', '(', ')', ',', '/', ':', ';', '<', '=', '>', '?', '@', '[', '\\', ']', '\x7b',
      '\x7d']) : c ≠ d := fun heq => h.2.2 (heq ▸ hd)

/-- The characters of a number. -/
def IsNumeric (c : Char) : Prop := c.isDigit ∨ c = '.'

/-- The whole part of a weight is a digit. -/
theorem Qvalue.isDigit_whole (q : Qvalue) : q.whole.isDigit = true := by
  rcases q.whole_digit with h | h <;> rw [h] <;> decide

/-- A weight is written in digits and a point. -/
theorem Qvalue.mem_text (q : Qvalue) {c : Char} (hc : c ∈ q.text) : IsNumeric c := by
  rw [Qvalue.text] at hc
  rcases List.mem_cons.mp hc with rfl | hc
  · exact .inl q.isDigit_whole
  · cases hdecimals : q.decimals with
    | none => simp [hdecimals] at hc
    | some ds =>
        rw [hdecimals] at hc
        rcases List.mem_cons.mp hc with rfl | hc
        · exact .inr rfl
        · exact .inl ((q.decimals_digits ds hdecimals).2 c hc)

/-- Such characters are token characters. -/
theorem IsNumeric.isTchar {c : Char} (h : IsNumeric c) : IsTchar c := by
  rcases h with h | rfl
  · simp only [Char.isDigit, Bool.and_eq_true, decide_eq_true_eq] at h
    have hlow : 48 ≤ c.toNat := h.1
    have hhigh : c.toNat ≤ 57 := h.2
    refine ⟨by omega, by omega, ?_⟩
    intro hmem
    simp only [List.mem_cons, List.not_mem_nil, or_false] at hmem
    rcases hmem with rfl | rfl | rfl | rfl | rfl | rfl | rfl | rfl | rfl | rfl | rfl | rfl | rfl |
      rfl | rfl | rfl | rfl <;> revert hlow hhigh <;> decide
  · refine ⟨by decide, by decide, by decide⟩

/-- The parameter of a weight is the name, `=` and numeric characters. -/
theorem Weight.mem_parameter (w : Weight) {c : Char} (hc : c ∈ w.parameter) :
    c = '=' ∨ IsTchar c := by
  rw [Weight.parameter] at hc
  rcases List.mem_cons.mp hc with rfl | hc
  · right
    split
    · exact ⟨by decide, by decide, by decide⟩
    · exact ⟨by decide, by decide, by decide⟩
  · rcases List.mem_cons.mp hc with rfl | hc
    · exact .inl rfl
    · exact .inr (w.qvalue.mem_text hc).isTchar

/-- A parameter has no whitespace inside. -/
theorem Weight.parameter_not_whitespace (w : Weight) {c : Char} (hc : c ∈ w.parameter) :
    isWhitespace c = false := by
  rcases w.mem_parameter hc with rfl | htchar
  · decide
  · exact htchar.not_whitespace

/-- A number is read as written. -/
theorem parseF32_qvalue (q : Qvalue) :
    parseF32 q.text = some (.decimal false q.mantissa (0 - q.fraction.length)) := by
  have hsign : splitSign q.text = (false, q.text) := by
    rw [Qvalue.text]
    rcases q.whole_digit with h | h <;> rw [h] <;> rfl
  have hletters : ∀ c : Char, c ∈ ['n', 'i'] → ∀ rest, q.text.map Char.toLower ≠ c :: rest := by
    intro c hc rest heq
    rw [Qvalue.text, List.map_cons] at heq
    have hhead := (List.cons.inj heq).1
    rcases q.whole_digit with h | h <;> rw [h] at hhead <;> subst hhead <;>
      exact absurd hc (by decide)
  have hnan : q.text.map Char.toLower ≠ "nan".toList := hletters 'n' (by decide) _
  have hinf : ¬ (q.text.map Char.toLower = "inf".toList ∨
      q.text.map Char.toLower = "infinity".toList) := by
    intro h
    rcases h with h | h
    · exact hletters 'i' (by decide) _ h
    · exact hletters 'i' (by decide) _ h
  have hwhole := q.isDigit_whole
  simp only [parseF32, hsign, hnan, hinf, if_false]
  cases hdecimals : q.decimals with
  | none =>
      simp [Qvalue.text, Qvalue.mantissa, Qvalue.fraction, hdecimals, hwhole, readExponent]
  | some ds =>
      have hdigits : ∀ c ∈ ds, c.isDigit = true := (q.decimals_digits ds hdecimals).2
      have hpoint : Char.isDigit '.' = false := by decide
      have htake : ds.takeWhile Char.isDigit = ds := List.takeWhile_eq_self_iff.mpr hdigits
      have hdrop : ds.dropWhile Char.isDigit = [] := List.dropWhile_eq_nil_iff.mpr hdigits
      simp [Qvalue.text, Qvalue.mantissa, Qvalue.fraction, hdecimals, hwhole, hpoint, htake, hdrop,
        readExponent]

/-- Rounding does not lose a positive weight. -/
theorem gtZero_qvalue (q : Qvalue) :
    (F32.decimal false q.mantissa (0 - q.fraction.length)).gtZero = true ↔ 0 < q.value := by
  have hlength : q.fraction.length ≤ 3 := by
    cases hdecimals : q.decimals with
    | none => simp [Qvalue.fraction, hdecimals]
    | some ds => simpa [Qvalue.fraction, hdecimals] using (q.decimals_digits ds hdecimals).1
  have hpower : 10 ^ q.fraction.length ≤ 10 ^ 3 := Nat.pow_le_pow_right (by decide) hlength
  have hvalue : 0 < q.value ↔ 0 < q.mantissa := by
    rw [Qvalue.value, div_pos_iff_of_pos_right (by positivity)]
    exact Nat.cast_pos
  have hexponent : (-(0 - (q.fraction.length : Int))).toNat = q.fraction.length := by omega
  have hzero : (0 - (q.fraction.length : Int)).toNat = 0 := by omega
  rw [hvalue, F32.gtZero, hexponent, hzero]
  simp only [Bool.not_false, Bool.true_and, decide_eq_true_eq]
  constructor
  · intro h
    by_contra hnone
    rw [Nat.eq_zero_of_not_pos hnone] at h
    simp at h
  · intro h
    have hscaled : 2 ^ 150 ≤ q.mantissa * 10 ^ 0 * 2 ^ 150 := by
      rw [Nat.pow_zero, Nat.mul_one]
      exact Nat.le_mul_of_pos_left _ h
    exact Nat.lt_of_le_of_lt hpower (Nat.lt_of_lt_of_le (by decide) hscaled)

/-- What the code reads of a weight: only a lower-case name is one. -/
def Coding.read (c : Coding) : Option F32 :=
  match c.weight with
  | none => none
  | some w =>
      if w.upper then none
      else some (.decimal false w.qvalue.mantissa (0 - w.qvalue.fraction.length))

/-- A coding has no whitespace in its name. -/
theorem Coding.name_not_whitespace (c : Coding) {d : Char} (hd : d ∈ c.name) :
    isWhitespace d = false := (c.name_token d hd).not_whitespace

/-- A coding does not begin with whitespace. -/
theorem Coding.head_text (c : Coding) : ∀ d ∈ c.text.head?, isWhitespace d = false := by
  intro d hd
  rw [Coding.text, List.head?_append_of_ne_nil _ c.name_nonempty] at hd
  exact c.name_not_whitespace (List.mem_of_mem_head? hd)

/-- A coding does not end with whitespace. -/
theorem Coding.getLast_text (c : Coding) : ∀ d ∈ c.text.getLast?, isWhitespace d = false := by
  intro d hd
  cases hweight : c.weight with
  | none =>
      rw [Coding.text, hweight, Option.elim_none, List.append_nil] at hd
      exact c.name_not_whitespace (List.mem_of_mem_getLast? hd)
  | some w =>
      have hparameter : w.parameter ≠ [] := by simp [Weight.parameter]
      have htext : c.text = c.name ++ w.before ++ ';' :: w.after ++ w.parameter := by
        simp [Coding.text, hweight, Weight.text]
      rw [htext, List.getLast?_append_of_ne_nil _ hparameter] at hd
      exact w.parameter_not_whitespace (List.mem_of_mem_getLast? hd)

/-- The parameter of a weight, once found. -/
theorem Weight.read_parameter (w : Weight) :
    (([w.parameter].findSome? fun p => (stripWeightName (trim p)).map trim).bind parseF32) =
      if w.upper then none
      else some (.decimal false w.qvalue.mantissa (0 - w.qvalue.fraction.length)) := by
  have hparameter : trim w.parameter = w.parameter :=
    trimMatches_eq_self (fun c hc => w.parameter_not_whitespace (List.mem_of_mem_head? hc))
      (fun c hc => w.parameter_not_whitespace (List.mem_of_mem_getLast? hc))
  have hvalue : ∀ c ∈ w.qvalue.text, isWhitespace c = false :=
    fun c hc => (w.qvalue.mem_text hc).isTchar.not_whitespace
  have htrim : trim w.qvalue.text = w.qvalue.text :=
    trimMatches_eq_self (fun c hc => hvalue c (List.mem_of_mem_head? hc))
      (fun c hc => hvalue c (List.mem_of_mem_getLast? hc))
  rw [List.findSome?_singleton, hparameter, Weight.parameter]
  cases w.upper with
  | true => rfl
  | false =>
      have hstrip : stripWeightName ('q' :: '=' :: w.qvalue.text) = some w.qvalue.text := rfl
      simp only [Bool.false_eq_true, if_false, hstrip, Option.map_some, htrim, Option.bind_some,
        parseF32_qvalue]

/-- A coding is read with its name and, but for the case of `q`, its weight. -/
theorem codingEntry_text (e : Element Coding) :
    codingEntry (e.text Coding.text) = e.item.map fun c => (c.name, c.read) := by
  cases hitem : e.item with
  | none =>
      have htrim : trim (e.text Coding.text) = [] := by
        rw [Element.text, hitem]
        exact trim_padded e.before_blank e.after_blank (by simp) (by simp)
      rw [codingEntry, htrim]
      rfl
  | some c =>
      have htrim : trim (e.text Coding.text) = c.text := by
        rw [Element.text, hitem]
        exact trim_padded e.before_blank e.after_blank c.head_text c.getLast_text
      have hnonempty : c.text.isEmpty = false := by
        simp [Coding.text, c.name_nonempty]
      have hsemicolon : ';' ∉ c.name := fun hmem =>
        (c.name_token _ hmem).ne_delimiter (by decide) rfl
      simp only [codingEntry, htrim, hnonempty, Bool.false_eq_true, if_false, Option.map_some,
        Coding.read]
      cases hweight : c.weight with
      | none =>
          have htext : c.text = c.name := by simp [Coding.text, hweight]
          simp only [htext, splitOnce_of_not_mem hsemicolon]
          rfl
      | some w =>
          have htext : c.text = (c.name ++ w.before) ++ ';' :: (w.after ++ w.parameter) := by
            simp [Coding.text, hweight, Weight.text]
          have hbefore : ';' ∉ c.name ++ w.before := by
            rw [List.mem_append]
            intro hmem
            rcases hmem with hmem | hmem
            · exact hsemicolon hmem
            · exact absurd (w.before_blank _ hmem) (by decide)
          have hname : trim (c.name ++ w.before) = c.name := by
            have hpadded : trim ([] ++ c.name ++ w.before) = c.name := trim_padded (by simp)
              w.before_blank (fun d hd => c.name_not_whitespace (List.mem_of_mem_head? hd))
              (fun d hd => c.name_not_whitespace (List.mem_of_mem_getLast? hd))
            simpa using hpadded
          have hparams : trim (w.after ++ w.parameter) = w.parameter := by
            have hpadded : trim (w.after ++ w.parameter ++ []) = w.parameter :=
              trim_padded w.after_blank (by simp)
                (fun d hd => w.parameter_not_whitespace (List.mem_of_mem_head? hd))
                (fun d hd => w.parameter_not_whitespace (List.mem_of_mem_getLast? hd))
            simpa using hpadded
          have hsplit : w.parameter.splitOn ';' = [w.parameter] := by
            apply List.splitOn_eq_singleton
            intro hmem
            rcases w.mem_parameter hmem with heq | htchar
            · exact absurd heq (by decide)
            · exact htchar.ne_delimiter (by decide) rfl
          simp only [htext, splitOnce_append hbefore, hname, hparams, hsplit, w.read_parameter]

/-- Blanks are visible to `to_str`. -/
theorem isVisibleAscii_of_isBlank {c : Char} (h : IsBlank c) : isVisibleAscii c = true := by
  rcases h with rfl | rfl <;> decide

/-- The text of a coding is visible and has no comma. -/
theorem Coding.mem_text (c : Coding) {d : Char} (hd : d ∈ c.text) :
    isVisibleAscii d = true ∧ d ≠ ',' := by
  have htchar : IsTchar d → isVisibleAscii d = true ∧ d ≠ ',' := fun h =>
    ⟨h.isVisibleAscii, h.ne_delimiter (by decide)⟩
  have hblank : IsBlank d → isVisibleAscii d = true ∧ d ≠ ',' := by
    intro h
    exact ⟨isVisibleAscii_of_isBlank h, by rcases h with rfl | rfl <;> decide⟩
  rcases List.mem_append.mp hd with hname | hweight
  · exact htchar (c.name_token d hname)
  · cases hsome : c.weight with
    | none => simp [hsome] at hweight
    | some w =>
        rw [hsome, Option.elim_some, Weight.text, List.mem_append, List.mem_cons,
          List.mem_append] at hweight
        rcases hweight with hbefore | rfl | hafter | hparameter
        · exact hblank (w.before_blank d hbefore)
        · decide
        · exact hblank (w.after_blank d hafter)
        · rcases w.mem_parameter hparameter with rfl | h
          · decide
          · exact htchar h

/-- An element of a list of codings is visible and has no comma. -/
theorem mem_codingElement {e : Element Coding} {d : Char} (hd : d ∈ e.text Coding.text) :
    isVisibleAscii d = true ∧ d ≠ ',' := by
  obtain hblank | ⟨c, _, hmem⟩ := e.mem_text hd
  · exact ⟨isVisibleAscii_of_isBlank hblank, by rcases hblank with rfl | rfl <;> decide⟩
  · exact c.mem_text hmem

/-- The entries of well-formed lines are the codings they list. -/
theorem codingEntries_eq {headers : HeaderMap} {elements : List (Element Coding)}
    (h : Forms Coding.text headers.acceptEncoding elements) :
    codingEntries headers = (codings elements).map fun c => (c.name, c.read) := by
  have hvisible : ∀ line ∈ headers.acceptEncoding, toStr line = some line := by
    intro line hline
    rw [toStr, if_pos]
    rw [List.all_eq_true]
    intro d hd
    obtain rfl | ⟨e, _, hmem⟩ := h.mem_line hline hd
    · decide
    · exact (mem_codingElement hmem).1
  have hlines : headers.acceptEncoding.filterMap toStr = headers.acceptEncoding := by
    calc headers.acceptEncoding.filterMap toStr
        = headers.acceptEncoding.filterMap some := List.filterMap_congr hvisible
      _ = headers.acceptEncoding := List.filterMap_some
  have hsplit : ∀ e : Element Coding,
      (e.text Coding.text).splitOn ',' = [e.text Coding.text] := by
    intro e
    apply List.splitOn_eq_singleton
    intro hmem
    exact (mem_codingElement hmem).2 rfl
  calc codingEntries headers
      = (headers.acceptEncoding.flatMap (List.splitOn ',')).filterMap codingEntry := by
        rw [codingEntries, hlines, List.filterMap_flatMap]
    _ = (elements.map (Element.text Coding.text)).filterMap codingEntry := by
        rw [h.pieces_eq, List.map_eq_flatMap]
        simp only [hsplit]
    _ = (codings elements).map fun c => (c.name, c.read) := by
        rw [List.filterMap_map, codings, List.map_filterMap]
        exact List.filterMap_congr fun e _ => codingEntry_text e

/-- What the code makes of the weight it has read. -/
def readAcceptable (read : Option F32) : Bool := read.isNone || (read.map F32.gtZero).getD false

/-- A weight of zero under an upper-case name. -/
def Coding.ShoutsZero (c : Coding) : Prop :=
  ∃ w ∈ c.weight, w.upper = true ∧ ¬ 0 < w.qvalue.value

/-- A weight that is read is acceptable when it is positive. -/
theorem readAcceptable_some (q : F32) : readAcceptable (some q) = q.gtZero := by
  simp [readAcceptable]

/-- A coding is accepted as the rule says, or for the case of its parameter. -/
theorem readAcceptable_read (c : Coding) :
    readAcceptable c.read = true ↔ c.Acceptable ∨ c.ShoutsZero := by
  cases hweight : c.weight with
  | none => simp [readAcceptable, Coding.read, Coding.Acceptable, hweight]
  | some w =>
      have hacceptable : c.Acceptable ↔ 0 < w.qvalue.value := by
        simp [Coding.Acceptable, hweight]
      have hshouts : c.ShoutsZero ↔ w.upper = true ∧ ¬ 0 < w.qvalue.value := by
        simp [Coding.ShoutsZero, hweight]
      have hread : c.read = if w.upper then none
          else some (.decimal false w.qvalue.mantissa (0 - w.qvalue.fraction.length)) := by
        simp [Coding.read, hweight]
      rw [hacceptable, hshouts, hread]
      by_cases hupper : w.upper = true
      · rw [if_pos hupper]
        exact ⟨fun _ => (em _).imp_right fun hzero => ⟨hupper, hzero⟩, fun _ => rfl⟩
      · rw [if_neg hupper, readAcceptable_some, gtZero_qvalue]
        exact ⟨.inl, fun h => h.resolve_right fun hshout => hupper hshout.1⟩

end Reading

/-! ## The rule and the code -/

section Negotiation

variable {cs : List Coding}

instance (c : Coding) (name : String) : Decidable (c.Named name) :=
  inferInstanceAs (Decidable (_ = _))

/-- Codings of distinct names. -/
def Distinct (cs : List Coding) : Prop :=
  cs.Pairwise fun a b => a.name.map Char.toLower ≠ b.name.map Char.toLower

/-- A name is listed once. -/
theorem Distinct.eq_of_named (h : Distinct cs) {a b : Coding} (ha : a ∈ cs) (hb : b ∈ cs)
    {name : String} (hanamed : a.Named name) (hbnamed : b.Named name) : a = b := by
  by_contra hne
  have hsymm : Std.Symm fun a b : Coding =>
      a.name.map Char.toLower ≠ b.name.map Char.toLower := ⟨fun _ _ => Ne.symm⟩
  exact h.forall ha hb hne (hanamed.trans hbnamed.symm)

/-- The coding that decides about `gzip`. -/
def Decides (cs : List Coding) (c : Coding) : Prop :=
  c ∈ cs ∧ (c.Named "gzip" ∨ (∀ d ∈ cs, ¬ d.Named "gzip") ∧ c.Named "*")

/-- One coding decides. -/
theorem Distinct.decides_unique (h : Distinct cs) {a b : Coding} (ha : Decides cs a)
    (hb : Decides cs b) : a = b := by
  obtain ⟨hamem, ha⟩ := ha
  obtain ⟨hbmem, hb⟩ := hb
  rcases ha with ha | ⟨hnone, ha⟩
  · rcases hb with hb | ⟨hnone, _⟩
    · exact h.eq_of_named hamem hbmem ha hb
    · exact absurd ha (hnone a hamem)
  · rcases hb with hb | ⟨_, hb⟩
    · exact absurd hb (hnone b hbmem)
    · exact h.eq_of_named hamem hbmem ha hb

/-- Gzip is acceptable when the deciding coding is. -/
theorem gzipAcceptable_iff : GzipAcceptable cs ↔ ∃ c, Decides cs c ∧ c.Acceptable := by
  constructor
  · intro h
    rcases h with ⟨c, hc, hnamed, hacceptable⟩ | ⟨hnone, c, hc, hnamed, hacceptable⟩
    · exact ⟨c, ⟨hc, .inl hnamed⟩, hacceptable⟩
    · exact ⟨c, ⟨hc, .inr ⟨hnone, hnamed⟩⟩, hacceptable⟩
  · intro h
    obtain ⟨c, ⟨hc, hnamed | ⟨hnone, hnamed⟩⟩, hacceptable⟩ := h
    · exact .inl ⟨c, hc, hnamed, hacceptable⟩
    · exact .inr ⟨hnone, c, hc, hnamed, hacceptable⟩

/-- Names are compared without case. -/
theorem eqIgnoreAsciiCase_iff (c : Coding) (name : String) :
    eqIgnoreAsciiCase c.name name.toList = true ↔ c.Named name := by
  rw [eqIgnoreAsciiCase, beq_iff_eq, Coding.Named]

/-- The code asks the coding that decides for the weight it has read. -/
theorem clientAcceptsGzip_iff {headers : HeaderMap}
    (hentries : codingEntries headers = cs.map fun c => (c.name, c.read)) (h : Distinct cs) :
    clientAcceptsGzip headers = true ↔ ∃ c, Decides cs c ∧ readAcceptable c.read = true := by
  have hfind : (cs.map fun c => (c.name, c.read)).find?
      (fun entry => eqIgnoreAsciiCase entry.1 "gzip".toList) =
      (cs.find? fun c => decide (c.Named "gzip")).map fun c => (c.name, c.read) := by
    rw [List.find?_map]
    congr 2
    funext c
    rw [Bool.eq_iff_iff, decide_eq_true_iff]
    exact eqIgnoreAsciiCase_iff c "gzip"
  rw [clientAcceptsGzip, hentries]
  simp only [hfind]
  cases hgzip : cs.find? fun c => decide (c.Named "gzip") with
  | some c =>
      have hc : Decides cs c :=
        ⟨List.mem_of_find?_eq_some hgzip, .inl (by simpa using List.find?_some hgzip)⟩
      have hread : (∃ d, Decides cs d ∧ readAcceptable d.read = true) ↔
          readAcceptable c.read = true := by
        constructor
        · intro hd
          obtain ⟨d, hd, hacceptable⟩ := hd
          rwa [h.decides_unique hc hd]
        · exact fun hacceptable => ⟨c, hc, hacceptable⟩
      rw [hread, Option.map_some]
      cases c.read with
      | none => simp [readAcceptable]
      | some q => rw [readAcceptable_some]
  | none =>
      have hnone : ∀ d ∈ cs, ¬ d.Named "gzip" := by
        intro d hd
        simpa using List.find?_eq_none.mp hgzip d hd
      rw [Option.map_none]
      simp only [List.any_map, List.any_eq_true, Function.comp_apply, Bool.and_eq_true,
        eqIgnoreAsciiCase_iff]
      constructor
      · intro hany
        obtain ⟨c, hc, hnamed, hacceptable⟩ := hany
        exact ⟨c, ⟨hc, .inr ⟨hnone, hnamed⟩⟩, hacceptable⟩
      · intro hdecides
        obtain ⟨c, ⟨hc, hnamed | ⟨_, hnamed⟩⟩, hacceptable⟩ := hdecides
        · exact absurd hnamed (hnone c hc)
        · exact ⟨c, hc, hnamed, hacceptable⟩

/-- **The negotiation of `gzip`.**  For every list of distinct codings, sent in any
lines: `client_accepts_gzip` answers as the rule says, exactly when the coding that
decides does not carry a weight of zero under an upper-case `Q`. -/
theorem gzip_negotiated_iff {headers : HeaderMap} {elements : List (Element Coding)}
    (hforms : Forms Coding.text headers.acceptEncoding elements)
    (hdistinct : Distinct (codings elements)) :
    (clientAcceptsGzip headers = true ↔ GzipAcceptable (codings elements)) ↔
      ∀ c, Decides (codings elements) c → ¬ c.ShoutsZero := by
  have hshouts : ∀ c : Coding, c.ShoutsZero → ¬ c.Acceptable := by
    intro c hshout hacceptable
    obtain ⟨w, hw, _, hzero⟩ := hshout
    exact hzero (hacceptable w hw)
  rw [clientAcceptsGzip_iff (codingEntries_eq hforms) hdistinct, gzipAcceptable_iff]
  simp only [readAcceptable_read]
  constructor
  · intro hagree c hc hshout
    obtain ⟨d, hd, hacceptable⟩ := hagree.mp ⟨c, hc, .inr hshout⟩
    rw [hdistinct.decides_unique hd hc] at hacceptable
    exact hshouts c hshout hacceptable
  · intro hquiet
    constructor
    · intro h
      obtain ⟨c, hc, hacceptable | hshout⟩ := h
      · exact ⟨c, hc, hacceptable⟩
      · exact absurd hshout (hquiet c hc)
    · intro h
      obtain ⟨c, hc, hacceptable⟩ := h
      exact ⟨c, hc, .inl hacceptable⟩

end Negotiation

section Samples

/-- `gzip` with a weight of one digit. -/
def weightedGzip (upper : Bool) (whole : Char) (h : whole = '0' ∨ whole = '1') : Coding where
  name := ['g', 'z', 'i', 'p']
  weight := some
    { before := []
      after := [' ']
      upper := upper
      qvalue := ⟨whole, none, h, by simp⟩
      before_blank := by simp
      after_blank := by simp [IsBlank] }
  name_nonempty := by simp
  name_token := by simp [IsTchar]

/-- `deflate` without a weight. -/
def plainDeflate : Coding where
  name := ['d', 'e', 'f', 'l', 'a', 't', 'e']
  weight := none
  name_nonempty := by simp
  name_token := by simp [IsTchar]

/-- An element without whitespace. -/
def bareElement {α : Type} (item : Option α) : Element α :=
  ⟨[], item, [], by simp, by simp⟩

/-- A request that sends only `Accept-Encoding`. -/
def encodingHeaders (lines : List HeaderValue) : HeaderMap := ⟨[], lines, [], []⟩

/-- Two lines with an empty element: `deflate,` and `gzip; q=1`. -/
def twoLines : List HeaderValue := ["deflate,".toList, "gzip; q=1".toList]

/-- The elements of the two lines. -/
def twoLineElements : List (Element Coding) :=
  [bareElement (some plainDeflate), bareElement none,
    bareElement (some (weightedGzip false '1' (.inr rfl)))]

/-- The theorem at codings on two lines. -/
theorem gzip_negotiated_iff_sample :
    clientAcceptsGzip (encodingHeaders twoLines) = true ↔
      GzipAcceptable (codings twoLineElements) := by
  have hforms : Forms Coding.text (encodingHeaders twoLines).acceptEncoding twoLineElements :=
    ⟨by simp [encodingHeaders, twoLines, twoLineElements], rfl⟩
  have hcodings : codings twoLineElements =
      [plainDeflate, weightedGzip false '1' (.inr rfl)] := rfl
  have hdistinct : Distinct (codings twoLineElements) := by
    rw [hcodings, Distinct, List.pairwise_pair]
    decide
  rw [gzip_negotiated_iff hforms hdistinct, hcodings]
  intro c hc hshout
  obtain ⟨w, hw, hupper, _⟩ := hshout
  rcases List.mem_pair.mp hc.1 with rfl | rfl
  · cases hw
  · cases hw
    cases hupper

/-- A client that refuses `gzip` in capitals: `gzip; Q=0`. -/
def shoutedLines : List HeaderValue := ["gzip; Q=0".toList]

/-- A coding with an upper-case weight parameter. -/
def shoutedElements : List (Element Coding) :=
  [bareElement (some (weightedGzip true '0' (.inl rfl)))]

/-- It is sent a compressed answer. -/
theorem shouted_refusal_ignored :
    Forms Coding.text (encodingHeaders shoutedLines).acceptEncoding shoutedElements ∧
      Distinct (codings shoutedElements) ∧
      ¬ (clientAcceptsGzip (encodingHeaders shoutedLines) = true ↔
        GzipAcceptable (codings shoutedElements)) := by
  have hcodings : codings shoutedElements = [weightedGzip true '0' (.inl rfl)] := rfl
  refine ⟨⟨by simp [encodingHeaders, shoutedLines, shoutedElements], rfl⟩, ?_, ?_⟩
  · rw [hcodings]
    exact List.pairwise_singleton _ _
  · have haccepted : clientAcceptsGzip (encodingHeaders shoutedLines) = true := by decide
    rw [hcodings]
    intro hagree
    obtain ⟨c, hc, hacceptable⟩ := gzipAcceptable_iff.mp (hagree.mp haccepted)
    obtain rfl := List.mem_singleton.mp hc.1
    have hpositive := hacceptable _ rfl
    have hzero : (⟨'0', none, .inl rfl, by simp⟩ : Qvalue).value = 0 := by
      simp [Qvalue.value, Qvalue.mantissa, Qvalue.fraction, Nat.ofDigitChars]
    rw [hzero] at hpositive
    exact absurd hpositive (lt_irrefl 0)

end Samples

end StatusListServer
