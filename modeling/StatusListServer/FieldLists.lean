import Mathlib.Data.List.Basic

/-!
# Comma-separated field values

A field of a message may be sent in several lines; its value is the lines joined by
commas.  A list value is a sequence of elements between commas, each with optional
whitespace around it.  An element that has no comma in it is found again by
splitting at commas, whatever the lines are.
-/

namespace FieldLists

/-- Optional whitespace. -/
def IsBlank (c : Char) : Prop := c = ' ' ∨ c = '\t'

instance (c : Char) : Decidable (IsBlank c) := inferInstanceAs (Decidable (_ ∨ _))

/-- The value of a field sent in several lines. -/
noncomputable def combined (lines : List (List Char)) : List Char := [','].intercalate lines

/-- The first line, a comma and the rest. -/
theorem combined_cons_cons (line next : List Char) (lines : List (List Char)) :
    combined (line :: next :: lines) = line ++ ',' :: combined (next :: lines) := by
  simp [combined, List.intercalate_cons_of_ne_nil]

/-- A single line is as it is. -/
@[simp] theorem combined_singleton (line : List Char) : combined [line] = line := by
  simp [combined]

/-- Splitting the value is splitting the lines. -/
theorem splitOn_combined {lines : List (List Char)} (h : lines ≠ []) :
    (combined lines).splitOn ',' = lines.flatMap (List.splitOn ',') := by
  induction lines with
  | nil => exact absurd rfl h
  | cons line lines ih =>
      cases lines with
      | nil => simp
      | cons next lines =>
          rw [combined_cons_cons, List.splitOn_append_cons_self, ih (by simp)]
          rfl

/-- The pieces between commas have no comma. -/
theorem not_mem_of_mem_splitOn {text piece : List Char} (h : piece ∈ text.splitOn ',') :
    ',' ∉ piece := by
  induction text generalizing piece with
  | nil =>
      obtain rfl := List.mem_singleton.mp h
      exact List.not_mem_nil
  | cons c text ih =>
      rw [List.splitOn_cons_eq_if_modifyHead] at h
      by_cases hc : (c == ',') = true
      · rw [if_pos hc] at h
        rcases List.mem_cons.mp h with rfl | h
        · exact List.not_mem_nil
        · exact ih h
      · rw [if_neg hc] at h
        cases hsplit : text.splitOn ',' with
        | nil => exact absurd hsplit (List.splitOn_ne_nil _ _)
        | cons first rest =>
            rw [hsplit, List.modifyHead_cons] at h
            rcases List.mem_cons.mp h with rfl | h
            · have hfirst : ',' ∉ first := ih (by simp [hsplit])
              simp only [List.mem_cons, not_or]
              exact ⟨fun heq => hc (by simp [← heq]), hfirst⟩
            · exact ih (by simp [hsplit, h])

/-- The characters of the lines are those of the value. -/
theorem mem_combined {lines : List (List Char)} {line : List Char} (hline : line ∈ lines)
    {c : Char} (hc : c ∈ line) : c ∈ combined lines := by
  induction lines with
  | nil => cases hline
  | cons first lines ih =>
      cases lines with
      | nil =>
          obtain rfl := List.mem_singleton.mp hline
          simpa using hc
      | cons next lines =>
          rw [combined_cons_cons, List.mem_append, List.mem_cons]
          rcases List.mem_cons.mp hline with hfirst | hrest
          · exact .inl (hfirst ▸ hc)
          · exact .inr (.inr (ih hrest))

/-- The characters of the value are commas and those of the lines. -/
theorem mem_or_comma_of_mem_combined {lines : List (List Char)} {c : Char}
    (hc : c ∈ combined lines) : c = ',' ∨ ∃ line ∈ lines, c ∈ line := by
  induction lines with
  | nil => simp [combined] at hc
  | cons first lines ih =>
      cases lines with
      | nil => exact .inr ⟨first, List.mem_cons_self, by simpa using hc⟩
      | cons next lines =>
          rw [combined_cons_cons, List.mem_append, List.mem_cons] at hc
          rcases hc with hfirst | hcomma | hrest
          · exact .inr ⟨first, List.mem_cons_self, hfirst⟩
          · exact .inl hcomma
          · obtain hcomma | ⟨line, hline, hmem⟩ := ih hrest
            · exact .inl hcomma
            · exact .inr ⟨line, List.mem_cons_of_mem _ hline, hmem⟩

/-- The characters of the pieces are those of the text. -/
theorem mem_of_mem_splitOn {text piece : List Char} (h : piece ∈ text.splitOn ',') {c : Char}
    (hc : c ∈ piece) : c ∈ text := by
  have hmem := mem_combined h hc
  rwa [combined, List.intercalate_splitOn] at hmem

/-- An element of a list value: an item or nothing, with optional whitespace around
it. -/
structure Element (α : Type) where
  before : List Char
  item : Option α
  after : List Char
  before_blank : ∀ c ∈ before, IsBlank c
  after_blank : ∀ c ∈ after, IsBlank c

variable {α : Type} (render : α → List Char)

/-- The element with its blanks. -/
def Element.text (e : Element α) : List Char := e.before ++ e.item.elim [] render ++ e.after

/-- The lines together are the list of the elements.  A field that is not sent has
no elements. -/
structure Forms (lines : List (List Char)) (elements : List (Element α)) : Prop where
  sent : lines = [] ↔ elements = []
  value : combined lines = combined (elements.map (Element.text render))

variable {render} {lines : List (List Char)} {elements : List (Element α)}

/-- The lines and the elements have the same pieces between commas. -/
theorem Forms.pieces_eq (h : Forms render lines elements) :
    lines.flatMap (List.splitOn ',') =
      elements.flatMap (fun e => (e.text render).splitOn ',') := by
  by_cases hlines : lines = []
  · simp [hlines, h.sent.mp hlines]
  · have helements : elements.map (Element.text render) ≠ [] := by
      simpa using mt h.sent.mpr hlines
    rw [← splitOn_combined hlines, h.value, splitOn_combined helements, List.flatMap_map]

/-- Every character of a line is a comma or a character of an element. -/
theorem Forms.mem_line (h : Forms render lines elements) {line : List Char} (hline : line ∈ lines)
    {c : Char} (hc : c ∈ line) : c = ',' ∨ ∃ e ∈ elements, c ∈ e.text render := by
  have hvalue := mem_combined hline hc
  rw [h.value] at hvalue
  obtain hcomma | ⟨text, htext, hmem⟩ := mem_or_comma_of_mem_combined hvalue
  · exact .inl hcomma
  · obtain ⟨e, he, rfl⟩ := List.mem_map.mp htext
    exact .inr ⟨e, he, hmem⟩

/-- The characters of an element are blanks and those of its item. -/
theorem Element.mem_text {e : Element α} {c : Char} (hc : c ∈ e.text render) :
    IsBlank c ∨ ∃ item, e.item = some item ∧ c ∈ render item := by
  rw [Element.text, List.mem_append, List.mem_append] at hc
  rcases hc with (hbefore | hitem) | hafter
  · exact .inl (e.before_blank c hbefore)
  · cases hsome : e.item with
    | none => simp [hsome] at hitem
    | some item => exact .inr ⟨item, rfl, by simpa [hsome] using hitem⟩
  · exact .inl (e.after_blank c hafter)

end FieldLists
