import Mathlib.Data.List.Forall2
import StatusListServer.RequestHeaders

/-!
# Lists of entity tags

`If-None-Match` is `*` or a list of entity tags, sent in one line or several.  The
code reads the first line, splits it at every comma and takes the `W/` and the quotes
off each piece.  A tag without a comma in it is one piece and is read as it stands;
a tag with commas falls into several, each of which is compared on its own.

`Piece` names what the pieces of a list are, and `if_none_match_follows_iff` says
exactly for which headers the answer is the one of the grammar.
-/

namespace StatusListServer

open FieldLists BitStream TextTrimming

/-- The characters of an entity tag: no quotes, no blanks, no controls. -/
def IsEtagc (c : Char) : Prop :=
  c.toNat = 0x21 ∨ (0x23 ≤ c.toNat ∧ c.toNat ≤ 0x7E) ∨ (0x80 ≤ c.toNat ∧ c.toNat ≤ 0xFF)

instance (c : Char) : Decidable (IsEtagc c) := inferInstanceAs (Decidable (_ ∨ _ ∨ _))

/-- An entity tag, weak or strong. -/
structure EntityTag where
  weak : Bool
  content : List Char
  etagc : ∀ c ∈ content, IsEtagc c

/-- What stands before the content. -/
def EntityTag.opening (tag : EntityTag) : List Char :=
  (if tag.weak then ['W', '/'] else []) ++ ['"']

/-- The tag as it is written. -/
def EntityTag.text (tag : EntityTag) : List Char := tag.opening ++ tag.content ++ ['"']

/-- What lies between two commas of a list of tags: nothing, a tag, or a part of a
tag with commas, as the code reads it. -/
inductive Piece
  | blank
  | whole (content : List Char)
  | part (text : List Char)
deriving DecidableEq

/-- The pieces of a tag: the code takes `W/` off the parts after the first one. -/
def EntityTag.pieces (tag : EntityTag) : List Piece :=
  match tag.content.splitOn ',' with
  | [] => []
  | [content] => [.whole content]
  | first :: rest => .part first :: rest.map fun text => .part (trimStartWeak text)

/-- What a list element becomes when the line is split at its commas. -/
def elementPieces (e : Element EntityTag) : List Piece :=
  match e.item with
  | none => [.blank]
  | some tag => tag.pieces

/-- What a whole header becomes. -/
def headerPieces (elements : List (Element EntityTag)) : List Piece :=
  elements.flatMap elementPieces

/-- A text of visible ASCII is read as the piece. -/
def ReadAs (text : List Char) (piece : Piece) : Prop :=
  (∀ c ∈ text, isVisibleAscii c = true) →
    match piece with
    | .blank => trim text = []
    | .whole content => trim text ≠ [] ∧ normalizeEtag (trim text) = content
    | .part content => normalizeEtag (trim text) = content

/-! ## Reading pieces -/

section Reading

/-- A visible character of a tag is no whitespace. -/
theorem IsEtagc.not_whitespace {c : Char} (h : IsEtagc c) (hvisible : isVisibleAscii c = true) :
    isWhitespace c = false := by
  have hascii : 32 < c.toNat ∧ c.toNat < 127 := by
    simp only [isVisibleAscii, Bool.or_eq_true, Bool.and_eq_true, decide_eq_true_eq,
      beq_iff_eq] at hvisible
    simp only [IsEtagc] at h
    rcases hvisible with ⟨hlow, hhigh⟩ | rfl
    · omega
    · exact absurd h (by decide)
  exact isWhitespace_of_ascii hascii.1 hascii.2

/-- A tag holds no quote. -/
theorem IsEtagc.ne_quote {c : Char} (h : IsEtagc c) : c ≠ '"' := by
  rintro rfl
  exact absurd h (by decide)

/-- A text without whitespace, between blanks. -/
theorem trim_visible {a b cs : List Char} (ha : ∀ c ∈ a, IsBlank c) (hb : ∀ c ∈ b, IsBlank c)
    (hcs : ∀ c ∈ cs, isWhitespace c = false) : trim (a ++ cs ++ b) = cs :=
  trim_padded ha hb (fun c hc => hcs c (List.mem_of_mem_head? hc))
    (fun c hc => hcs c (List.mem_of_mem_getLast? hc))

/-- A text without whitespace is trimmed already. -/
theorem trim_self {cs : List Char} (hcs : ∀ c ∈ cs, isWhitespace c = false) : trim cs = cs := by
  have h := trim_visible (a := []) (b := []) (by simp) (by simp) hcs
  simpa using h

/-- Trimming takes characters from the start only. -/
theorem trimStartWeak_suffix (cs : List Char) : trimStartWeak cs <:+ cs := by
  fun_induction trimStartWeak cs with
  | case1 rest ih => exact ih.trans ((List.suffix_cons _ _).trans (List.suffix_cons _ _))
  | case2 cs => exact List.suffix_refl _

/-- A closing quote does not complete a `W/`. -/
theorem trimStartWeak_quote (cs : List Char) :
    trimStartWeak (cs ++ ['"']) = trimStartWeak cs ++ ['"'] := by
  fun_induction trimStartWeak cs with
  | case1 rest ih => exact ih
  | case2 cs hne =>
      match cs, hne with
      | [], _ => rfl
      | [c], _ => simp [trimStartWeak]
      | c :: d :: rest, hne =>
          have hcd : ¬ (c = 'W' ∧ d = '/') := by
            intro h
            exact hne rest (by rw [h.1, h.2])
          rw [List.cons_append, List.cons_append, trimStartWeak]
          intro rest' heq
          injection heq with hc hrest
          injection hrest with hd
          exact hcd ⟨hc, hd⟩

/-- The opening of a tag is trimmed to its quote. -/
theorem EntityTag.trimStartWeak_opening (tag : EntityTag) (cs : List Char) :
    trimStartWeak (tag.opening ++ cs) = '"' :: cs := by
  rw [EntityTag.opening]
  cases tag.weak <;> simp [trimStartWeak]

/-- The opening has neither whitespace nor a comma. -/
theorem EntityTag.mem_opening (tag : EntityTag) {c : Char} (hc : c ∈ tag.opening) :
    isWhitespace c = false ∧ c ≠ ',' ∧ isVisibleAscii c = true := by
  rw [EntityTag.opening] at hc
  cases hweak : tag.weak with
  | true =>
      simp only [hweak, if_true, List.cons_append, List.nil_append, List.mem_cons,
        List.not_mem_nil, or_false] at hc
      rcases hc with rfl | rfl | rfl <;> decide
  | false =>
      simp only [hweak, Bool.false_eq_true, if_false, List.nil_append, List.mem_cons,
        List.not_mem_nil, or_false] at hc
      subst hc
      decide

variable {text : List Char}

/-- No character of a visible tag is whitespace. -/
theorem etagc_not_whitespace (h : ∀ c ∈ text, IsEtagc c)
    (hvisible : ∀ c ∈ text, isVisibleAscii c = true) : ∀ c ∈ text, isWhitespace c = false :=
  fun c hc => (h c hc).not_whitespace (hvisible c hc)

/-- The content of a tag holds no quote. -/
theorem quote_not_mem (h : ∀ c ∈ text, IsEtagc c) : '"' ∉ text :=
  fun hmem => (h _ hmem).ne_quote rfl

/-- Nor does what is left of it after trimming. -/
theorem quote_not_mem_trimStartWeak (h : ∀ c ∈ text, IsEtagc c) : '"' ∉ trimStartWeak text :=
  fun hmem => quote_not_mem h ((trimStartWeak_suffix text).subset hmem)

/-- A part between two commas of a tag. -/
theorem readAs_middle (h : ∀ c ∈ text, IsEtagc c) : ReadAs text (.part (trimStartWeak text)) := by
  intro hascii
  have htrim := trim_self (etagc_not_whitespace h hascii)
  have hquotes : trimMatches (· == '"') ([] ++ trimStartWeak text ++ []) = trimStartWeak text :=
    trimMatches_marks (by simp) (by simp) (quote_not_mem_trimStartWeak h)
  rw [normalizeEtag, htrim, htrim]
  simpa using hquotes

/-- The part after the last comma of a tag. -/
theorem readAs_last (h : ∀ c ∈ text, IsEtagc c) {after : List Char}
    (hafter : ∀ c ∈ after, IsBlank c) :
    ReadAs (text ++ '"' :: after) (.part (trimStartWeak text)) := by
  intro hascii
  have hvisible : ∀ c ∈ text ++ ['"'], isWhitespace c = false := by
    intro c hc
    rcases List.mem_append.mp hc with hc | hc
    · exact (h c hc).not_whitespace (hascii c (List.mem_append_left _ hc))
    · rw [List.mem_singleton.mp hc]
      decide
  have htrim : trim (text ++ '"' :: after) = text ++ ['"'] := by
    have hpadded := trim_visible (a := []) (by simp) hafter hvisible
    simpa using hpadded
  have hquotes : trimMatches (· == '"') ([] ++ trimStartWeak text ++ ['"']) = trimStartWeak text :=
    trimMatches_marks (by simp) (by simp) (quote_not_mem_trimStartWeak h)
  rw [htrim, normalizeEtag, trim_self hvisible, trimStartWeak_quote]
  simpa using hquotes

/-- The opening of a tag and what follows it up to a comma or the closing quote. -/
theorem normalizeEtag_opened (tag : EntityTag) (h : ∀ c ∈ text, IsEtagc c)
    (hascii : ∀ c ∈ text, isVisibleAscii c = true) {before after : List Char}
    (hbefore : ∀ c ∈ before, IsBlank c) (hafter : ∀ c ∈ after, IsBlank c)
    (closing : List Char) (hclosing : ∀ c ∈ closing, c = '"') :
    trim (before ++ (tag.opening ++ text ++ closing) ++ after) = tag.opening ++ text ++ closing ∧
      normalizeEtag (tag.opening ++ text ++ closing) = text := by
  have hvisible : ∀ c ∈ tag.opening ++ text ++ closing, isWhitespace c = false := by
    intro c hc
    rw [List.mem_append, List.mem_append] at hc
    rcases hc with (hc | hc) | hc
    · exact (tag.mem_opening hc).1
    · exact (h c hc).not_whitespace (hascii c hc)
    · rw [hclosing c hc]
      decide
  have hquotes : trimMatches (· == '"') (['"'] ++ text ++ closing) = text :=
    trimMatches_marks (by simp) hclosing (quote_not_mem h)
  refine ⟨trim_visible hbefore hafter hvisible, ?_⟩
  rw [normalizeEtag, trim_self hvisible, List.append_assoc, tag.trimStartWeak_opening]
  simpa using hquotes

/-- The parts of a tag after the first comma. -/
theorem readAs_rest {after : List Char} (hafter : ∀ c ∈ after, IsBlank c) {rest : List (List Char)}
    (hne : rest ≠ []) (hrest : ∀ text ∈ rest, ',' ∉ text ∧ ∀ c ∈ text, IsEtagc c) :
    List.Forall₂ ReadAs ((combined rest ++ '"' :: after).splitOn ',')
      (rest.map fun text => .part (trimStartWeak text)) := by
  induction rest with
  | nil => exact absurd rfl hne
  | cons text rest ih =>
      obtain ⟨hcomma, hetagc⟩ := hrest text List.mem_cons_self
      cases rest with
      | nil =>
          have hsplit : (text ++ '"' :: after).splitOn ',' = [text ++ '"' :: after] := by
            apply List.splitOn_eq_singleton
            rw [List.mem_append, List.mem_cons]
            intro hmem
            rcases hmem with hmem | hquote | hmem
            · exact hcomma hmem
            · exact absurd hquote (by decide)
            · exact absurd (hafter _ hmem) (by decide)
          rw [combined_singleton, hsplit]
          exact .cons (readAs_last hetagc hafter) .nil
      | cons next rest =>
          have htail := ih (by simp) fun text htext => hrest text (List.mem_cons_of_mem _ htext)
          rw [combined_cons_cons, List.append_assoc, List.cons_append,
            List.splitOn_append_cons_self_of_not_mem hcomma]
          exact .cons (readAs_middle hetagc) htail

/-- The text of a tag falls into its pieces, and the first of them is not `*`. -/
theorem EntityTag.read_pieces (tag : EntityTag) {before after : List Char}
    (hbefore : ∀ c ∈ before, IsBlank c) (hafter : ∀ c ∈ after, IsBlank c) :
    List.Forall₂ ReadAs ((before ++ tag.text ++ after).splitOn ',') tag.pieces ∧
      ∀ text ∈ ((before ++ tag.text ++ after).splitOn ',').head?,
        (∀ c ∈ text, isVisibleAscii c = true) → trim text ≠ ['*'] := by
  have hopening : ',' ∉ before ++ tag.opening := by
    rw [List.mem_append]
    intro hmem
    rcases hmem with hmem | hmem
    · exact absurd (hbefore _ hmem) (by decide)
    · exact (tag.mem_opening hmem).2.1 rfl
  have hstar : ∀ rest : List Char, tag.opening ++ rest ≠ ['*'] := by
    intro rest
    rw [EntityTag.opening]
    cases tag.weak <;> simp
  have hpart : ∀ text ∈ tag.content.splitOn ',', ',' ∉ text ∧ ∀ c ∈ text, IsEtagc c :=
    fun text htext => ⟨not_mem_of_mem_splitOn htext,
      fun c hc => tag.etagc c (mem_of_mem_splitOn htext hc)⟩
  have hcontent : combined (tag.content.splitOn ',') = tag.content := List.intercalate_splitOn _
  rw [EntityTag.pieces]
  cases hsplit : tag.content.splitOn ',' with
  | nil => exact absurd hsplit (List.splitOn_ne_nil _ _)
  | cons first rest =>
      rw [hsplit] at hpart hcontent
      obtain ⟨hcomma, hetagc⟩ := hpart first List.mem_cons_self
      cases rest with
      | nil =>
          rw [combined_singleton] at hcontent
          have hopened := fun hascii => normalizeEtag_opened tag hetagc hascii hbefore hafter ['"']
            (by simp)
          have htext : tag.text = tag.opening ++ first ++ ['"'] := by
            rw [EntityTag.text, ← hcontent]
          have hsingle : (before ++ tag.text ++ after).splitOn ',' =
              [before ++ tag.text ++ after] := by
            apply List.splitOn_eq_singleton
            rw [htext]
            simp only [List.mem_append, List.mem_singleton] at hopening ⊢
            intro hmem
            rcases hmem with (hmem | (hmem | hmem) | hmem) | hmem
            · exact hopening (.inl hmem)
            · exact hopening (.inr hmem)
            · exact hcomma hmem
            · exact absurd hmem (by decide)
            · exact absurd (hafter _ hmem) (by decide)
          rw [hsingle, htext]
          have hshown : (∀ c ∈ before ++ (tag.opening ++ first ++ ['"']) ++ after,
              isVisibleAscii c = true) → ∀ c ∈ first, isVisibleAscii c = true :=
            fun hascii c hc => hascii c (by simp [hc])
          refine ⟨.cons ?_ .nil, ?_⟩
          · intro hascii
            obtain ⟨htrim, hread⟩ := hopened (hshown hascii)
            refine ⟨?_, ?_⟩
            · rw [htrim]
              simp [EntityTag.opening]
            · rw [htrim]
              exact hread
          · intro text hmem hascii
            cases hmem
            rw [(hopened (hshown hascii)).1, List.append_assoc]
            exact hstar _
      | cons next rest =>
          rw [combined_cons_cons] at hcontent
          have hnone : ∀ c ∈ ([] : List Char), IsBlank c := by simp
          have hopened := fun hascii => normalizeEtag_opened tag hetagc hascii hbefore hnone []
            (by simp)
          simp only [List.append_nil] at hopened
          have htext : before ++ tag.text ++ after = (before ++ (tag.opening ++ first)) ++
              ',' :: (combined (next :: rest) ++ '"' :: after) := by
            rw [EntityTag.text, ← hcontent]
            simp
          have hfirst : ',' ∉ before ++ (tag.opening ++ first) := by
            rw [← List.append_assoc, List.mem_append]
            intro hmem
            rcases hmem with hmem | hmem
            · exact hopening hmem
            · exact hcomma hmem
          rw [htext, List.splitOn_append_cons_self_of_not_mem hfirst]
          have hshown : (∀ c ∈ before ++ (tag.opening ++ first), isVisibleAscii c = true) →
              ∀ c ∈ first, isVisibleAscii c = true := fun hascii c hc => hascii c (by simp [hc])
          refine ⟨.cons ?_ (readAs_rest hafter (by simp) fun text htext =>
            hpart text (List.mem_cons_of_mem _ htext)), ?_⟩
          · intro hascii
            obtain ⟨htrim, hread⟩ := hopened (hshown hascii)
            rw [htrim]
            exact hread
          · intro text hmem hascii
            cases hmem
            rw [(hopened (hshown hascii)).1]
            exact hstar _

/-- The pieces of an element read as they should. -/
theorem read_element (e : Element EntityTag) :
    List.Forall₂ ReadAs ((e.text EntityTag.text).splitOn ',') (elementPieces e) ∧
      ∀ text ∈ ((e.text EntityTag.text).splitOn ',').head?,
        (∀ c ∈ text, isVisibleAscii c = true) → trim text ≠ ['*'] := by
  rw [elementPieces]
  cases hitem : e.item with
  | some tag =>
      rw [Element.text, hitem]
      exact tag.read_pieces e.before_blank e.after_blank
  | none =>
      have htrim : trim (e.text EntityTag.text) = [] := by
        rw [Element.text, hitem]
        exact trim_visible e.before_blank e.after_blank (by simp)
      have hsplit : (e.text EntityTag.text).splitOn ',' = [e.text EntityTag.text] := by
        apply List.splitOn_eq_singleton
        intro hmem
        obtain hblank | ⟨tag, htag, _⟩ := e.mem_text hmem
        · exact absurd hblank (by decide)
        · rw [hitem] at htag
          cases htag
      rw [hsplit]
      refine ⟨.cons (fun _ => htrim) .nil, ?_⟩
      intro text htext _
      cases htext
      rw [htrim]
      simp

/-- The pieces of the lines are read as the pieces of the list. -/
theorem read_header {lines : List HeaderValue} {elements : List (Element EntityTag)}
    (h : Forms EntityTag.text lines elements) :
    List.Forall₂ ReadAs (lines.flatMap (List.splitOn ',')) (headerPieces elements) := by
  rw [h.pieces_eq, headerPieces]
  clear h
  induction elements with
  | nil => exact .nil
  | cons e elements ih =>
      rw [List.flatMap_cons, List.flatMap_cons]
      exact List.rel_append (read_element e).1 ih

/-- A visible first line of a list of tags is not `*`. -/
theorem first_line_ne_star {first : HeaderValue} {lines : List HeaderValue}
    {elements : List (Element EntityTag)}
    (h : Forms EntityTag.text (first :: lines) elements)
    (hascii : ∀ c ∈ first, isVisibleAscii c = true) : trim first ≠ ['*'] := by
  intro hstar
  have hcomma : ',' ∉ first := by
    intro hmem
    have htrimmed : ',' ∈ trim first := by
      have hdrop : ∀ cs : List Char, ',' ∈ cs → ',' ∈ cs.dropWhile isWhitespace := by
        intro cs hcs
        rw [← List.takeWhile_append_dropWhile (p := isWhitespace) (l := cs),
          List.mem_append] at hcs
        rcases hcs with hcs | hcs
        · exact absurd (List.mem_takeWhile_imp hcs) (by decide)
        · exact hcs
      rw [trim, trimMatches, List.mem_reverse]
      exact hdrop _ (List.mem_reverse.mpr (hdrop _ hmem))
    rw [hstar] at htrimmed
    exact absurd htrimmed (by decide)
  have hhead := congrArg List.head? h.pieces_eq
  rw [List.flatMap_cons, List.splitOn_eq_singleton hcomma] at hhead
  cases helements : elements with
  | nil => exact absurd (h.sent.mpr helements) (by simp)
  | cons e rest =>
      have hne : (e.text EntityTag.text).splitOn ',' ≠ [] := List.splitOn_ne_nil _ _
      rw [helements, List.flatMap_cons, List.head?_append_of_ne_nil _ hne] at hhead
      exact (read_element e).2 first hhead.symm hascii hstar

/-- Related lists have related members. -/
theorem exists_mem_iff {α β : Type} {R : α → β → Prop} {as : List α} {bs : List β}
    (h : List.Forall₂ R as bs) {P : α → Prop} {Q : β → Prop}
    (hPQ : ∀ a b, R a b → (P a ↔ Q b)) : (∃ a ∈ as, P a) ↔ ∃ b ∈ bs, Q b := by
  induction h with
  | nil => simp
  | cons hab _ ih => simp only [List.exists_mem_cons_iff, ih, hPQ _ _ hab]

/-- A piece matches a digest when it is read as the digest. -/
theorem readAs_matches {digest : List Char} (hdigest : digest ≠ []) {text : List Char}
    {piece : Piece} (hascii : ∀ c ∈ text, isVisibleAscii c = true) (h : ReadAs text piece) :
    (trim text ≠ [] ∧ normalizeEtag (trim text) = digest) ↔
      piece = .whole digest ∨ piece = .part digest := by
  have hempty : normalizeEtag [] = [] := rfl
  have h := h hascii
  cases piece with
  | blank =>
      dsimp only at h
      simp [h]
  | whole content =>
      dsimp only at h
      simp [h.1, h.2]
  | part content =>
      dsimp only at h
      simp only [h, reduceCtorEq, false_or, Piece.part.injEq, and_iff_right_iff_imp]
      intro hcontent htrim
      rw [htrim, hempty] at h
      exact hdigest (hcontent.symm.trans h.symm)

end Reading

/-! ## The grammar and the code -/

/-- An `If-None-Match` field: `*` or a list of tags. -/
inductive NoneMatch
  | any
  | tags (elements : List (Element EntityTag))

/-- The lines that carry the field. -/
def NoneMatch.Sent (lines : List HeaderValue) : NoneMatch → Prop
  | .any => ∃ before after, (∀ c ∈ before, IsBlank c) ∧ (∀ c ∈ after, IsBlank c) ∧
      lines = [before ++ ['*'] ++ after]
  | .tags elements => lines ≠ [] ∧ Forms EntityTag.text lines elements

/-- The rule: `*`, or a listed tag with the given content. -/
def NoneMatch.Matches (digest : List Char) : NoneMatch → Prop
  | .any => True
  | .tags elements => ∃ tag ∈ elements.filterMap Element.item, tag.content = digest

/-- The pieces of a list that stand in the first of its lines, and the others. -/
def shownPieces (lines : List HeaderValue) (elements : List (Element EntityTag)) : List Piece :=
  (headerPieces elements).take ((lines.headD []).splitOn ',').length

/-- The pieces that the code does not read as a listed tag. -/
def hiddenPieces (lines : List HeaderValue) (elements : List (Element EntityTag)) : List Piece :=
  (headerPieces elements).drop ((lines.headD []).splitOn ',').length

/-- When the field is read as it is meant: a first line of visible ASCII has the tag
in it, or has a part of another tag that reads like it exactly when a later line has
the tag; a first line that is not visible ASCII leaves the answer to the date, which
happens to agree. -/
def NoneMatch.ReadAsMeant (lines : List HeaderValue) (digest : List Char) (unmodified : Prop) :
    NoneMatch → Prop
  | .any => True
  | .tags elements =>
      if (lines.headD []).all isVisibleAscii = true then
        .whole digest ∈ shownPieces lines elements ∨
          (.part digest ∈ shownPieces lines elements ↔ .whole digest ∈ hiddenPieces lines elements)
      else (unmodified ↔ .whole digest ∈ headerPieces elements)

section Matching

variable {elements : List (Element EntityTag)} {digest : List Char}

/-- A tag without a comma is listed when it is a piece of the list. -/
theorem matches_tags_iff (hcomma : ',' ∉ digest) :
    (NoneMatch.tags elements).Matches digest ↔ .whole digest ∈ headerPieces elements := by
  have hpieces : ∀ tag : EntityTag, .whole digest ∈ tag.pieces ↔ tag.content = digest := by
    intro tag
    rw [EntityTag.pieces]
    constructor
    · intro h
      have hcontent : combined (tag.content.splitOn ',') = tag.content :=
        List.intercalate_splitOn _
      split at h
      · cases h
      · rename_i content hsplit
        rw [hsplit, combined_singleton] at hcontent
        rw [List.mem_singleton, Piece.whole.injEq] at h
        rw [← hcontent, h]
      · simp at h
    · intro h
      rw [h, List.splitOn_eq_singleton hcomma]
      exact List.mem_singleton.mpr rfl
  rw [NoneMatch.Matches, headerPieces]
  simp only [List.mem_flatMap, List.mem_filterMap, exists_and_right.symm]
  constructor
  · intro h
    obtain ⟨tag, e, ⟨he, hitem⟩, hcontent⟩ := h
    refine ⟨e, he, ?_⟩
    rw [elementPieces, hitem]
    exact (hpieces tag).mpr hcontent
  · intro h
    obtain ⟨e, he, hmem⟩ := h
    rw [elementPieces] at hmem
    cases hitem : e.item with
    | none => simp [hitem] at hmem
    | some tag =>
        rw [hitem] at hmem
        exact ⟨tag, e, ⟨he, hitem⟩, (hpieces tag).mp hmem⟩

/-- A visible first line of a list, read by the code. -/
theorem evaluateIfNoneMatch_line {first : HeaderValue} {lines : List HeaderValue}
    (h : Forms EntityTag.text (first :: lines) elements)
    (hascii : ∀ c ∈ first, isVisibleAscii c = true) (hdigest : digest ≠ []) {etag : String}
    (hetag : normalizeEtag etag.toList = digest) :
    evaluateIfNoneMatch (some (String.ofList first)) etag = .notModified ↔
      .whole digest ∈ shownPieces (first :: lines) elements ∨
        .part digest ∈ shownPieces (first :: lines) elements := by
  have hread : List.Forall₂ ReadAs (first.splitOn ',') (shownPieces (first :: lines) elements) := by
    have htake := List.forall₂_take (first.splitOn ',').length (read_header h)
    rwa [List.flatMap_cons, List.take_left'] at htake
    rfl
  have hshown : List.Forall₂ (fun text piece => (∀ c ∈ text, isVisibleAscii c = true) ∧
      ReadAs text piece) (first.splitOn ',') (shownPieces (first :: lines) elements) :=
    (List.forall₂_and_left _ _).mpr
      ⟨fun text htext c hc => hascii c (mem_of_mem_splitOn htext hc), hread⟩
  have hpieces := exists_mem_iff hshown fun text piece hpiece =>
    readAs_matches hdigest hpiece.1 hpiece.2
  have hany : ((first.splitOn ',').map trim).any
        (fun piece => !piece.isEmpty && etagEqWeak piece etag.toList) = true ↔
      ∃ text ∈ first.splitOn ',', trim text ≠ [] ∧ normalizeEtag (trim text) = digest := by
    simp [etagEqWeak, hetag]
  have hmember : (∃ piece ∈ shownPieces (first :: lines) elements,
        piece = .whole digest ∨ piece = .part digest) ↔
      .whole digest ∈ shownPieces (first :: lines) elements ∨
        .part digest ∈ shownPieces (first :: lines) elements := by
    simp only [and_or_left, exists_or, exists_eq_right]
  rw [evaluateIfNoneMatch]
  simp only [String.toList_ofList, first_line_ne_star h hascii, if_false]
  rw [← hmember, ← hpieces, ← hany]
  split
  · rename_i hmatch
    exact ⟨fun _ => hmatch, fun _ => rfl⟩
  · rename_i hmatch
    constructor
    · intro heq
      cases heq
    · intro hmatched
      exact absurd hmatched hmatch

end Matching

/-- What is left of an equivalence under a disjunction. -/
theorem or_iff_or_iff {a p h : Prop} : (a ∨ p ↔ a ∨ h) ↔ (a ∨ (p ↔ h)) := by
  by_cases ha : a <;> simp [ha]

/-- What the code compares: the digest of the current record. -/
theorem normalizeEtag_generateEtag (sha256 : String → List Byte) (record : StatusListRecord) :
    normalizeEtag (generateEtag sha256 record).toList =
      hexEncode (sha256 (etagContent record)) := by
  rw [generateEtag_toList, normalizeEtag_etagChars]

/-- The text of a header is that of its first line. -/
theorem headerText_cons (first : HeaderValue) (lines : List HeaderValue) :
    headerText (first :: lines) =
      if first.all isVisibleAscii = true then some (String.ofList first) else none := by
  simp only [headerText, List.head?_cons, Option.bind_some, toStr]
  split <;> rfl

/-- **`If-None-Match` and its grammar.**  For every record, every field that is `*`
or a list of entity tags, and every way of sending it in lines: an acceptable request
is treated as not modified by the rule exactly when the field is read as it is meant.
The rule is broken by a tag that only a later line has, by a comma inside a tag one of
whose parts reads like the current tag, and by a first line with other than visible
ASCII, which is taken as absent. -/
theorem if_none_match_follows_iff (dates : HttpDates) (sha256 : String → List Byte)
    (lib : TokenLibrary) (settings : TokenSettings) {headers : HeaderMap} {answers : GetAnswers}
    {format : TokenFormat} (haccept : negotiate (headerText headers.accept) = .ok format)
    {record : StatusListRecord} (hrecord : answers.record = .ok record)
    (hsha : (sha256 (etagContent record)).length = 32) {field : NoneMatch}
    (hsent : field.Sent headers.ifNoneMatch) :
    (IsNotModified (getStatusList dates sha256 lib settings (.ofHeaders none headers) answers) ↔
        field.Matches (hexEncode (sha256 (etagContent record)))) ↔
      field.ReadAsMeant headers.ifNoneMatch (hexEncode (sha256 (etagContent record)))
        (evaluateIfModifiedSince dates (headerText headers.ifModifiedSince) record.updatedAt
          answers.now = .notModified) := by
  have hetag := normalizeEtag_generateEtag sha256 record
  have hcomma : ',' ∉ hexEncode (sha256 (etagContent record)) := fun hmem =>
    absurd (isHex_of_mem_hexEncode hmem) (by unfold IsHex; decide)
  have hdigest : hexEncode (sha256 (etagContent record)) ≠ [] := by
    cases hbytes : sha256 (etagContent record) with
    | nil => simp [hbytes] at hsha
    | cons b bytes => simp [hexEncode]
  have htime : (GetRequest.ofHeaders none headers).time = none := rfl
  have haccept' : negotiate (GetRequest.ofHeaders none headers).accept = .ok format := haccept
  rw [isNotModified_iff htime haccept' hrecord]
  simp only [GetRequest.ofHeaders]
  cases field with
  | any =>
      obtain ⟨before, after, hbefore, hafter, hlines⟩ := hsent
      have hvisible : (before ++ ['*'] ++ after).all isVisibleAscii = true := by
        rw [List.all_eq_true]
        intro c hc
        rw [List.mem_append, List.mem_append, List.mem_singleton] at hc
        rcases hc with (hc | rfl) | hc
        · exact isVisibleAscii_of_isBlank (hbefore c hc)
        · decide
        · exact isVisibleAscii_of_isBlank (hafter c hc)
      have htrim : trim (before ++ ['*'] ++ after) = ['*'] :=
        trim_visible hbefore hafter (List.forall_mem_singleton.mpr (by decide))
      rw [hlines, headerText_cons, if_pos hvisible, evaluateConditionalRequest_tag,
        evaluateIfNoneMatch]
      simp only [String.toList_ofList, htrim, if_true]
      exact ⟨fun _ => trivial, fun _ => ⟨fun _ => trivial, fun _ => trivial⟩⟩
  | tags elements =>
      obtain ⟨hne, hforms⟩ := hsent
      rw [matches_tags_iff hcomma, NoneMatch.ReadAsMeant]
      generalize headers.ifNoneMatch = lines at hne hforms ⊢
      cases lines with
      | nil => exact absurd rfl hne
      | cons first lines =>
          rw [headerText_cons, List.headD_cons]
          by_cases hvisible : first.all isVisibleAscii = true
          · have hwhole : .whole (hexEncode (sha256 (etagContent record))) ∈
                headerPieces elements ↔
              .whole (hexEncode (sha256 (etagContent record))) ∈
                  shownPieces (first :: lines) elements ∨
                .whole (hexEncode (sha256 (etagContent record))) ∈
                  hiddenPieces (first :: lines) elements := by
              rw [shownPieces, hiddenPieces, ← List.mem_append, List.take_append_drop]
            rw [if_pos hvisible, if_pos hvisible, evaluateConditionalRequest_tag,
              evaluateIfNoneMatch_line hforms (List.all_eq_true.mp hvisible) hdigest hetag, hwhole]
            exact or_iff_or_iff
          · rw [if_neg hvisible, if_neg hvisible, evaluateConditionalRequest_date]

section Samples

/-- Digests are visible characters of a tag. -/
theorem IsHex.isEtagc {c : Char} (h : IsHex c) : IsEtagc c ∧ isVisibleAscii c = true := by
  have hall : ("0123456789abcdef".toList.all fun c =>
      decide (IsEtagc c) && isVisibleAscii c) = true := by decide
  simpa using List.all_eq_true.mp hall c h

/-- The digest of the sample record. -/
def sampleDigest : List Char := hexEncode (sampleSha256 (etagContent sampleRecord))

/-- The sample digest has no comma. -/
theorem comma_not_mem_sampleDigest : ',' ∉ sampleDigest := fun hmem =>
  absurd (isHex_of_mem_hexEncode hmem) (by unfold IsHex; decide)

/-- A tag of the sample record. -/
def sampleTag : EntityTag :=
  ⟨false, sampleDigest, fun _ hc => (isHex_of_mem_hexEncode hc).isEtagc.1⟩

/-- A tag with a comma before the digest of the sample record. -/
def foreignTag : EntityTag where
  weak := false
  content := 'x' :: ',' :: sampleDigest
  etagc := by
    intro c hc
    rcases List.mem_cons.mp hc with rfl | hc
    · decide
    · rcases List.mem_cons.mp hc with rfl | hc
      · decide
      · exact (isHex_of_mem_hexEncode hc).isEtagc.1

/-- A request that sends only `If-None-Match`. -/
def tagHeaders (lines : List HeaderValue) : HeaderMap := ⟨[], [], lines, []⟩

/-- A line of tags without blanks is a list of them. -/
theorem forms_bare (tag : EntityTag) (tags : List EntityTag) :
    Forms EntityTag.text ((tag :: tags).map EntityTag.text)
      ((tag :: tags).map fun tag => bareElement (some tag)) := by
  refine ⟨by simp, ?_⟩
  rw [List.map_map]
  congr 1
  apply List.map_congr_left
  intro tag _
  simp [Element.text, bareElement]

/-- The sample tag is visible text. -/
theorem visible_sampleTag : sampleTag.text.all isVisibleAscii = true := by
  have hdigest : ∀ c ∈ sampleDigest, isVisibleAscii c = true :=
    fun c hc => (isHex_of_mem_hexEncode hc).isEtagc.2
  simp only [EntityTag.text, List.all_append, Bool.and_eq_true, List.all_eq_true]
  have hquote : ∀ c ∈ ['"'], isVisibleAscii c = true := List.forall_mem_singleton.mpr (by decide)
  exact ⟨⟨hquote, hdigest⟩, hquote⟩

/-- The theorem at the tag of the sample record. -/
theorem if_none_match_follows_iff_sample :
    IsNotModified (getStatusList sampleDates sampleSha256 sampleTokens sampleSettings
        (.ofHeaders none (tagHeaders [sampleTag.text])) (sampleAnswers 1794964400)) ↔
      (NoneMatch.tags [bareElement (some sampleTag)]).Matches sampleDigest := by
  have haccept : negotiate (headerText (tagHeaders [sampleTag.text]).accept) = .ok .jwt := rfl
  have hrecord : (sampleAnswers 1794964400).record = .ok sampleRecord := rfl
  have hsent : (NoneMatch.tags [bareElement (some sampleTag)]).Sent
      (tagHeaders [sampleTag.text]).ifNoneMatch := ⟨by simp [tagHeaders], forms_bare sampleTag []⟩
  apply (if_none_match_follows_iff sampleDates sampleSha256 sampleTokens sampleSettings haccept
    hrecord (by decide) hsent).mpr
  have hpieces : headerPieces [bareElement (some sampleTag)] = [.whole sampleDigest] := by
    simp [headerPieces, elementPieces, bareElement, EntityTag.pieces, sampleTag,
      List.splitOn_eq_singleton comma_not_mem_sampleDigest]
  have hlength : 0 < (sampleTag.text.splitOn ',').length :=
    List.length_pos_iff.mpr (List.splitOn_ne_nil _ _)
  have hfirst : (tagHeaders [sampleTag.text]).ifNoneMatch.headD [] = sampleTag.text := rfl
  rw [NoneMatch.ReadAsMeant, hfirst, if_pos visible_sampleTag, shownPieces, hpieces, hfirst]
  left
  rw [List.take_of_length_le hlength]
  exact List.mem_singleton.mpr rfl

/-- The parts of a foreign tag: the second one reads like the tag of the record. -/
theorem pieces_foreignTag : foreignTag.pieces = [.part ['x'], .part sampleDigest] := by
  have hsplit : foreignTag.content.splitOn ',' = [['x'], sampleDigest] := by
    change (['x'] ++ ',' :: sampleDigest).splitOn ',' = _
    rw [List.splitOn_append_cons_self_of_not_mem (by decide),
      List.splitOn_eq_singleton comma_not_mem_sampleDigest]
  have hweak : trimStartWeak sampleDigest = sampleDigest := by
    cases hdigest : sampleDigest with
    | nil => rfl
    | cons c rest =>
        have hc : IsHex c := isHex_of_mem_hexEncode (hdigest ▸ List.mem_cons_self)
        rw [trimStartWeak]
        intro rest' heq
        rw [(List.cons.inj heq).1] at hc
        exact absurd hc (by unfold IsHex; decide)
  rw [EntityTag.pieces, hsplit]
  simp [hweak]

/-- A client that holds another version, whose tag is `"x,` and the current digest, is
told that nothing has changed. -/
theorem foreign_tag_confirmed :
    (NoneMatch.tags [bareElement (some foreignTag)]).Sent
        (tagHeaders [foreignTag.text]).ifNoneMatch ∧
      ¬ (IsNotModified (getStatusList sampleDates sampleSha256 sampleTokens sampleSettings
          (.ofHeaders none (tagHeaders [foreignTag.text])) (sampleAnswers 1794964400)) ↔
        (NoneMatch.tags [bareElement (some foreignTag)]).Matches sampleDigest) := by
  have hforms : Forms EntityTag.text [foreignTag.text] [bareElement (some foreignTag)] :=
    forms_bare foreignTag []
  have hpieces : headerPieces [bareElement (some foreignTag)] =
      [.part ['x'], .part sampleDigest] := by
    simpa [headerPieces, elementPieces, bareElement] using pieces_foreignTag
  have hvisible : foreignTag.text.all isVisibleAscii = true := by
    have hdigest : ∀ c ∈ sampleDigest, isVisibleAscii c = true :=
      fun c hc => (isHex_of_mem_hexEncode hc).isEtagc.2
    have hcontent : ∀ c ∈ foreignTag.content, isVisibleAscii c = true := by
      intro c hc
      rcases List.mem_cons.mp hc with rfl | hc
      · decide
      · rcases List.mem_cons.mp hc with rfl | hc
        · decide
        · exact hdigest c hc
    simp only [EntityTag.text, List.all_append, Bool.and_eq_true, List.all_eq_true]
    have hquote : ∀ c ∈ ['"'], isVisibleAscii c = true :=
      List.forall_mem_singleton.mpr (by decide)
    exact ⟨⟨hquote, hcontent⟩, hquote⟩
  refine ⟨⟨by simp [tagHeaders], hforms⟩, ?_⟩
  intro hagree
  have hunlisted : ¬ (NoneMatch.tags [bareElement (some foreignTag)]).Matches sampleDigest := by
    rw [matches_tags_iff comma_not_mem_sampleDigest, hpieces]
    simp
  apply hunlisted
  apply hagree.mp
  have htime : (GetRequest.ofHeaders none (tagHeaders [foreignTag.text])).time = none := rfl
  have haccept : negotiate (GetRequest.ofHeaders none (tagHeaders [foreignTag.text])).accept =
      .ok .jwt := rfl
  have hrecord : (sampleAnswers 1794964400).record = .ok sampleRecord := rfl
  have hmatch : (GetRequest.ofHeaders none (tagHeaders [foreignTag.text])).ifNoneMatch =
      some (String.ofList foreignTag.text) := by
    simp only [GetRequest.ofHeaders, tagHeaders, headerText_cons, if_pos hvisible]
  have hlength : (foreignTag.text.splitOn ',').length = 2 := by
    have hread := (read_header hforms).length_eq
    rw [hpieces] at hread
    simpa using hread
  rw [isNotModified_iff htime haccept hrecord, hmatch, evaluateConditionalRequest_tag,
    evaluateIfNoneMatch_line hforms (List.all_eq_true.mp hvisible) (by decide)
      (normalizeEtag_generateEtag sampleSha256 _)]
  right
  rw [shownPieces, List.headD_cons, hlength, hpieces]
  exact List.mem_cons_of_mem _ (List.mem_singleton.mpr rfl)

end Samples

end StatusListServer
