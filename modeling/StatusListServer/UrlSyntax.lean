import StatusListServer.Utf8Slices

/-!
# The generic syntax of a URL

Percent-encoding writes a byte as itself or as `%` and two hexadecimal digits.  When
every byte kept is an ASCII character other than `%`, decoding gives the bytes back,
and no character enters the text but the kept ones, `%` and the digits.

A URL with an authority is split at its delimiters: the scheme ends at the first
`://`, the authority at the next `/`, the user information at the only `@` of the
authority, the host at the last `:`, and the path at the first `?`.
-/

namespace Url

/-! ## Percent-encoding -/

/-- A hexadecimal digit, in upper case. -/
def hexDigit (n : Nat) : Char := if n < 10 then Char.ofNat (48 + n) else Char.ofNat (55 + n)

/-- The value of a hexadecimal digit of either case. -/
def hexValue (c : Char) : Option Nat :=
  if '0' ≤ c ∧ c ≤ '9' then some (c.toNat - 48)
  else if 'A' ≤ c ∧ c ≤ 'F' then some (c.toNat - 55)
  else if 'a' ≤ c ∧ c ≤ 'f' then some (c.toNat - 87)
  else none

/-- A byte as itself where `keep` has it, else as `%` and its two digits. -/
def encodeByte (keep : UInt8 → Bool) (b : UInt8) : List Char :=
  if keep b then [Char.ofNat b.toNat]
  else ['%', hexDigit (b.toNat / 16), hexDigit (b.toNat % 16)]

/-- Percent-encode every byte that is not kept. -/
def encode (keep : UInt8 → Bool) (bytes : List UInt8) : List Char :=
  bytes.flatMap (encodeByte keep)

/-- The bytes of percent-encoded text; none where a `%` is not followed by two
digits. -/
def decode : List Char → Option (List UInt8)
  | [] => some []
  | c :: rest =>
      if c = '%' then
        match rest with
        | high :: low :: rest =>
            match hexValue high, hexValue low, decode rest with
            | some h, some l, some bytes => some (UInt8.ofNat (16 * h + l) :: bytes)
            | _, _, _ => none
        | _ => none
      else (decode rest).map (String.utf8EncodeChar c ++ ·)

/-- The text whose UTF-8 bytes some percent-encoded text stands for. -/
def decodeText (cs : List Char) : Option (List Char) :=
  (decode cs).bind fun bytes => (String.fromUTF8? ⟨bytes.toArray⟩).map String.toList

/-- A hexadecimal digit is read back. -/
theorem hexValue_hexDigit {n : Nat} (h : n < 16) : hexValue (hexDigit n) = some n := by
  have hall : ∀ n < 16, hexValue (hexDigit n) = some n := by decide
  exact hall n h

section Encode

variable {keep : UInt8 → Bool}

/-- No bytes, no text. -/
@[simp] theorem encode_nil : encode keep [] = [] := rfl

/-- Bytes are encoded one by one. -/
@[simp] theorem encode_cons (b : UInt8) (bytes : List UInt8) :
    encode keep (b :: bytes) = encodeByte keep b ++ encode keep bytes := rfl

/-- Encoding is done piece by piece. -/
theorem encode_append (a b : List UInt8) :
    encode keep (a ++ b) = encode keep a ++ encode keep b := List.flatMap_append

/-- A property of `%`, of the digits and of the kept characters holds throughout
encoded text. -/
theorem forall_mem_encode {P : Char → Prop} (hpercent : P '%') (hdigit : ∀ n < 16, P (hexDigit n))
    (hkeep : ∀ b, keep b = true → P (Char.ofNat b.toNat)) (bytes : List UInt8) :
    ∀ c ∈ encode keep bytes, P c := by
  intro c hc
  obtain ⟨b, -, hb⟩ := List.mem_flatMap.mp hc
  have hlt := b.toNat_lt
  unfold encodeByte at hb
  split at hb
  · next hkept =>
      obtain rfl := List.mem_singleton.mp hb
      exact hkeep b hkept
  · rcases List.mem_cons.mp hb with rfl | hb
    · exact hpercent
    · rcases List.mem_cons.mp hb with rfl | hb
      · exact hdigit _ (by omega)
      · obtain rfl := List.mem_singleton.mp hb
        exact hdigit _ (by omega)

/-- The bytes kept are ASCII characters other than `%`. -/
def Plain (keep : UInt8 → Bool) : Prop :=
  ∀ b, keep b = true → b.toNat < 128 ∧ b.toNat ≠ 37

/-- A character other than the percent sign stands for its own bytes. -/
theorem decode_cons_of_ne {c : Char} (h : c ≠ '%') (rest : List Char) :
    decode (c :: rest) = (decode rest).map (String.utf8EncodeChar c ++ ·) := by
  rw [decode.eq_def]
  exact if_neg h

/-- An escape stands for one byte. -/
theorem decode_escape {h l : Nat} (hh : h < 16) (hl : l < 16) (rest : List Char) :
    decode ('%' :: hexDigit h :: hexDigit l :: rest) =
      (decode rest).map (UInt8.ofNat (16 * h + l) :: ·) := by
  rw [decode.eq_def]
  simp only [if_true, hexValue_hexDigit hh, hexValue_hexDigit hl]
  cases decode rest with
  | none => rfl
  | some bytes => rfl

/-- A character below 128 is encoded as its number. -/
theorem utf8EncodeChar_ofNat {n : Nat} (h : n < 128) :
    String.utf8EncodeChar (Char.ofNat n) = [UInt8.ofNat n] := by
  have hall : ∀ n < 128, String.utf8EncodeChar (Char.ofNat n) = [UInt8.ofNat n] := by decide
  exact hall n h

/-- An encoded byte is read back. -/
theorem decode_encodeByte (hkeep : Plain keep) (b : UInt8) (rest : List Char) :
    decode (encodeByte keep b ++ rest) = (decode rest).map (b :: ·) := by
  have hlt := b.toNat_lt
  unfold encodeByte
  split
  · next hkept =>
      obtain ⟨hascii, hpercent⟩ := hkeep b hkept
      have hne : Char.ofNat b.toNat ≠ '%' := by
        have hall : ∀ n < 128, n ≠ 37 → Char.ofNat n ≠ '%' := by decide
        exact hall _ hascii hpercent
      rw [List.singleton_append, decode_cons_of_ne hne, utf8EncodeChar_ofNat hascii,
        UInt8.ofNat_toNat]
      rfl
  · have hb : 16 * (b.toNat / 16) + b.toNat % 16 = b.toNat := Nat.div_add_mod b.toNat 16
    have hescape := decode_escape (h := b.toNat / 16) (l := b.toNat % 16) (by omega) (by omega) rest
    rw [hb, UInt8.ofNat_toNat] at hescape
    exact hescape

/-- **Decoding undoes encoding**, on any bytes. -/
theorem decode_encode (hkeep : Plain keep) (bytes : List UInt8) :
    decode (encode keep bytes) = some bytes := by
  induction bytes with
  | nil => rfl
  | cons b bytes ih => rw [encode_cons, decode_encodeByte hkeep, ih, Option.map_some]

/-- The bytes of a text are read as that text. -/
theorem fromUTF8?_bytes (text : List Char) :
    String.fromUTF8? ⟨(Utf8.bytes text).toArray⟩ = some (String.ofList text) := by
  have hbytes : (⟨(Utf8.bytes text).toArray⟩ : ByteArray) = (String.ofList text).toByteArray := by
    rw [String.toByteArray_ofList]
    exact ByteArray.ext (List.data_toByteArray).symm
  rw [hbytes, String.fromUTF8?, dif_pos (String.ofList text).isValidUTF8]
  rfl

/-- **Encoded text decodes to itself**, whatever its characters. -/
theorem decodeText_encode (hkeep : Plain keep) (text : List Char) :
    decodeText (encode keep (Utf8.bytes text)) = some text := by
  simp [decodeText, decode_encode hkeep, fromUTF8?_bytes]

end Encode

/-! ## Delimiters -/

/-- The text before and after the first `c`. -/
def splitFirst (c : Char) : List Char → Option (List Char × List Char)
  | [] => none
  | d :: rest =>
      if d = c then some ([], rest)
      else (splitFirst c rest).map fun parts => (d :: parts.1, parts.2)

/-- The text before and after the last `c`. -/
def splitLast (c : Char) (cs : List Char) : Option (List Char × List Char) :=
  (splitFirst c cs.reverse).map fun parts => (parts.2.reverse, parts.1.reverse)

/-- The text before and after the only `c`; none where there are several. -/
def splitOnly (c : Char) (cs : List Char) : Option (List Char × List Char) :=
  (splitFirst c cs).bind fun parts => if c ∈ parts.2 then none else some parts

/-- The text before and after the first `://`. -/
def splitScheme : List Char → Option (List Char × List Char)
  | [] => none
  | c :: rest =>
      if (c :: rest).take 3 = [':', '/', '/'] then some ([], rest.drop 2)
      else (splitScheme rest).map fun parts => (c :: parts.1, parts.2)

section Split

variable {c : Char} {a b : List Char}

/-- The split is at the first occurrence. -/
theorem splitFirst_append (h : c ∉ a) : splitFirst c (a ++ c :: b) = some (a, b) := by
  induction a with
  | nil => simp [splitFirst]
  | cons d a ih =>
      obtain ⟨hd, ha⟩ := List.ne_and_not_mem_of_not_mem_cons h
      simp [splitFirst, Ne.symm hd, ih ha]

/-- Without an occurrence there is no split. -/
theorem splitFirst_of_not_mem (h : c ∉ a) : splitFirst c a = none := by
  induction a with
  | nil => rfl
  | cons d a ih =>
      obtain ⟨hd, ha⟩ := List.ne_and_not_mem_of_not_mem_cons h
      simp [splitFirst, Ne.symm hd, ih ha]

/-- The split is at the last occurrence. -/
theorem splitLast_append (h : c ∉ b) : splitLast c (a ++ c :: b) = some (a, b) := by
  have hrev : (a ++ c :: b).reverse = b.reverse ++ c :: a.reverse := by simp
  rw [splitLast, hrev, splitFirst_append (by simpa using h)]
  simp

/-- A single occurrence is where the text is split. -/
theorem splitOnly_append (ha : c ∉ a) (hb : c ∉ b) : splitOnly c (a ++ c :: b) = some (a, b) := by
  simp [splitOnly, splitFirst_append ha, hb]

/-- The scheme ends at the first colon. -/
theorem splitScheme_append (h : ':' ∉ a) :
    splitScheme (a ++ ':' :: '/' :: '/' :: b) = some (a, b) := by
  induction a with
  | nil => simp [splitScheme]
  | cons d a ih =>
      obtain ⟨hd, ha⟩ := List.ne_and_not_mem_of_not_mem_cons h
      simp [splitScheme, Ne.symm hd, ih ha]

end Split

/-! ## The parts of a URL -/

/-- The number some decimal digits stand for. -/
def readPort (cs : List Char) : Option Nat :=
  if cs ≠ [] ∧ cs.all Char.isDigit then some (Nat.ofDigitChars 10 cs 0) else none

/-- The path and the query of what follows the authority. -/
def splitQuery (cs : List Char) : List Char × Option (List Char) :=
  match splitFirst '?' cs with
  | some (path, query) => (path, some query)
  | none => (cs, none)

/-- The parts of a connection URL. -/
structure Parts where
  scheme : List Char
  username : List Char
  password : List Char
  host : List Char
  port : Nat
  path : List Char
  query : Option (List Char)
deriving DecidableEq, Repr

/-- A URL split at its delimiters, the user information and the path decoded. -/
def parse (url : List Char) : Option Parts := do
  let (scheme, rest) ← splitScheme url
  let (authority, rest) ← splitFirst '/' rest
  let (userinfo, address) ← splitOnly '@' authority
  let (username, password) ← splitOnly ':' userinfo
  let (host, port) ← splitLast ':' address
  let (path, query) := splitQuery rest
  return {
    scheme
    username := ← decodeText username
    password := ← decodeText password
    host
    port := ← readPort port
    path := ← decodeText path
    query }

/-- A number is written in digits. -/
theorem isDigit_of_mem_toDigits {n : Nat} {c : Char} (h : c ∈ Nat.toDigits 10 n) :
    c.isDigit = true :=
  Nat.isDigit_of_mem_toDigits (by decide) (by decide) h

/-- A port number is read back. -/
theorem readPort_toDigits (n : Nat) : readPort (Nat.toDigits 10 n) = some n := by
  have hdigits : (Nat.toDigits 10 n).all Char.isDigit = true :=
    List.all_eq_true.mpr fun _ => isDigit_of_mem_toDigits
  rw [readPort, if_pos ⟨Nat.toDigits_ne_nil, hdigits⟩, Nat.ofDigitChars_ten_toDigits]

/-- A query as it follows the path. -/
def queryText : Option (List Char) → List Char
  | none => []
  | some query => '?' :: query

/-- The query starts at the first question mark. -/
theorem splitQuery_append {path : List Char} (h : '?' ∉ path) (query : Option (List Char)) :
    splitQuery (path ++ queryText query) = (path, query) := by
  cases query with
  | none => simp [splitQuery, queryText, splitFirst_of_not_mem h]
  | some query => simp [splitQuery, queryText, splitFirst_append h]

/-- The characters that delimit the parts of a URL. -/
def IsDelimiter (c : Char) : Prop := c = ':' ∨ c = '/' ∨ c = '@' ∨ c = '?'

instance (c : Char) : Decidable (IsDelimiter c) := inferInstanceAs (Decidable (_ ∨ _))

section Assemble

variable {keep : UInt8 → Bool}

/-- The user information, the host and the port between their delimiters. -/
def authorityText (keep : UInt8 → Bool) (parts : Parts) : List Char :=
  (encode keep (Utf8.bytes parts.username) ++ ':' :: encode keep (Utf8.bytes parts.password)) ++
    '@' :: (parts.host ++ ':' :: Nat.toDigits 10 parts.port)

/-- The URL of some parts, with the user information and the path encoded. -/
def assemble (keep : UInt8 → Bool) (parts : Parts) : List Char :=
  parts.scheme ++ ':' :: '/' :: '/' :: (authorityText keep parts ++
    '/' :: (encode keep (Utf8.bytes parts.path) ++ queryText parts.query))

/-- A number contains no delimiter. -/
theorem delimiter_not_mem_toDigits {c : Char} (hc : IsDelimiter c) (n : Nat) :
    c ∉ Nat.toDigits 10 n := by
  intro hmem
  have hdigit := isDigit_of_mem_toDigits hmem
  rcases hc with rfl | rfl | rfl | rfl <;> simp at hdigit

/-- The encoding keeps no delimiter. -/
def KeepsNoDelimiter (keep : UInt8 → Bool) : Prop :=
  ∀ b, keep b = true → ¬ IsDelimiter (Char.ofNat b.toNat)

/-- An encoded text contains no delimiter, if none is kept. -/
theorem delimiter_not_mem_encode (hkeep : KeepsNoDelimiter keep) {c : Char} (hc : IsDelimiter c)
    (bytes : List UInt8) : c ∉ encode keep bytes := by
  intro hmem
  have hfree := forall_mem_encode (P := fun c => ¬ IsDelimiter c) (by decide) (by decide) hkeep
  exact hfree bytes c hmem hc

/-- **An assembled URL splits into its parts.**  The host has no `/` and no `@`; it may
have colons, and the query may be any text. -/
theorem parse_assemble (hplain : Plain keep) (hkeep : KeepsNoDelimiter keep) {parts : Parts}
    (hscheme : ':' ∉ parts.scheme) (hslash : '/' ∉ parts.host) (hat : '@' ∉ parts.host) :
    parse (assemble keep parts) = some parts := by
  have hcolon : IsDelimiter ':' := by decide
  have hsep : IsDelimiter '/' := by decide
  have huser : IsDelimiter '@' := by decide
  have hquery : IsDelimiter '?' := by decide
  have hencoded {c : Char} (hc : IsDelimiter c) := delimiter_not_mem_encode hkeep hc
  have hdigits {c : Char} (hc : IsDelimiter c) := delimiter_not_mem_toDigits hc parts.port
  have hauthority : '/' ∉ authorityText keep parts := by
    simp [authorityText, hencoded hsep, hdigits hsep, hslash]
  have haddress : '@' ∉ parts.host ++ ':' :: Nat.toDigits 10 parts.port := by
    simp [hdigits huser, hat]
  have huserinfo : '@' ∉ encode keep (Utf8.bytes parts.username) ++
      ':' :: encode keep (Utf8.bytes parts.password) := by
    simp [hencoded huser]
  simp only [parse, assemble]
  rw [splitScheme_append hscheme]
  simp only [Option.bind_eq_bind, Option.bind_some]
  rw [splitFirst_append hauthority]
  simp only [Option.bind_some]
  rw [authorityText, splitOnly_append huserinfo haddress]
  simp only [Option.bind_some]
  rw [splitOnly_append (hencoded hcolon _) (hencoded hcolon _)]
  simp only [Option.bind_some]
  rw [splitLast_append (hdigits hcolon), splitQuery_append (hencoded hquery _)]
  simp only [Option.bind_some, decodeText_encode hplain, readPort_toDigits]
  rfl

end Assemble

end Url
