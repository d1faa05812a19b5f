import Mathlib.Data.List.Induction
import StatusListServer.DnsChallenges
import StatusListServer.Utf8Slices

/-!
# The choice of a zone

`find_best_match` with its byte offsets: `Sliced.findBestMatch` compares and cuts the
lookup name as the source does, and has no result where a slice would begin or end
inside a character.  There is no such place, and the result is that of
`findBestMatch`.

A zone is meant to match on whole labels (`ZoneCovers`).  The plain branch does.  The
wildcard branch asks for a dot anywhere before the stripped name, not for one right
before it, so a wildcard zone also takes names of other domains (`Overreaches`).
-/

namespace StatusListServer

/-! ## The first of the greatest -/

section FirstBest

variable {α : Type} (p : α → Prop) [DecidablePred p] (weight : α → Nat)

/-- Keep the best of what was seen, the earlier one of two of the same weight. -/
def keepBest (best : Option α) (x : α) : Option α :=
  if p x then
    match best with
    | none => some x
    | some current => if weight x > weight current then some x else best
  else best

/-- Among the elements with the property, the first one of the greatest weight. -/
def FirstBest (xs : List α) (x : α) : Prop :=
  ∃ before after, xs = before ++ x :: after ∧ p x ∧
    (∀ y ∈ before, p y → weight y < weight x) ∧ ∀ y ∈ after, p y → weight y ≤ weight x

/-- The first best is before or after every other element with the property, and no
lighter. -/
theorem FirstBest.beats {p : α → Prop} {weight : α → Nat} {xs before after : List α} {x z : α}
    (h : FirstBest p weight xs x) (hxs : xs = before ++ z :: after) (hz : p z) (hother : z ≠ x) :
    (x ∈ before ∧ weight z ≤ weight x) ∨ (x ∈ after ∧ weight z < weight x) := by
  obtain ⟨before', after', hxs', _, hbefore, hafter⟩ := h
  rw [hxs] at hxs'
  obtain ⟨middle, rfl, htail⟩ | ⟨middle, rfl, htail⟩ := List.append_eq_append_iff.mp hxs'
  · cases middle with
    | nil => exact absurd (List.cons.inj htail).1 hother
    | cons first middle =>
        obtain ⟨rfl, rfl⟩ := List.cons.inj htail
        exact .inr ⟨by simp, hbefore z (by simp) hz⟩
  · cases middle with
    | nil => exact absurd (List.cons.inj htail).1.symm hother
    | cons first middle =>
        obtain ⟨rfl, rfl⟩ := List.cons.inj htail
        exact .inl ⟨by simp, hafter z (by simp) hz⟩

/-- What the best is after some elements. -/
def IsBest (xs : List α) : Option α → Prop
  | none => ∀ x ∈ xs, ¬ p x
  | some x => FirstBest p weight xs x

variable {p weight}

/-- The best so far is kept when one more is visited. -/
theorem IsBest.keepBest {xs : List α} {best : Option α} (h : IsBest p weight xs best) (x : α) :
    IsBest p weight (xs ++ [x]) (keepBest p weight best x) := by
  unfold StatusListServer.keepBest
  by_cases hx : p x
  · rw [if_pos hx]
    cases best with
    | none =>
        refine ⟨xs, [], rfl, hx, ?_, ?_⟩
        · intro y hy hpy
          exact absurd hpy (h y hy)
        · intro y hy
          cases hy
    | some current =>
        obtain ⟨before, after, rfl, hcurrent, hbefore, hafter⟩ := h
        by_cases hweight : weight x > weight current
        · simp only [hweight, ↓reduceIte]
          refine ⟨_, [], rfl, hx, ?_, ?_⟩
          · intro y hy hpy
            rcases List.mem_append.mp hy with hy | hy
            · have := hbefore y hy hpy
              omega
            · rcases List.mem_cons.mp hy with rfl | hy
              · exact hweight
              · have := hafter y hy hpy
                omega
          · intro y hy
            cases hy
        · simp only [hweight, ↓reduceIte]
          refine ⟨before, after ++ [x], by simp, hcurrent, hbefore, ?_⟩
          intro y hy hpy
          rcases List.mem_append.mp hy with hy | hy
          · exact hafter y hy hpy
          · rw [List.mem_singleton.mp hy]
            omega
  · rw [if_neg hx]
    cases best with
    | none =>
        intro y hy
        rcases List.mem_append.mp hy with hy | hy
        · exact h y hy
        · rw [List.mem_singleton.mp hy]
          exact hx
    | some current =>
        obtain ⟨before, after, rfl, hcurrent, hbefore, hafter⟩ := h
        refine ⟨before, after ++ [x], by simp, hcurrent, hbefore, ?_⟩
        intro y hy hpy
        rcases List.mem_append.mp hy with hy | hy
        · exact hafter y hy hpy
        · rw [List.mem_singleton.mp hy] at hpy
          exact absurd hpy hx

/-- The loop ends with the first of the greatest. -/
theorem isBest_foldl (xs : List α) : IsBest p weight xs (xs.foldl (keepBest p weight) none) := by
  induction xs using List.reverseRecOn with
  | nil =>
      intro x hx
      cases hx
  | append_singleton xs x ih =>
      rw [List.foldl_append]
      exact ih.keepBest x

end FirstBest

/-- The zones that match, for the loop of `find_best_match`. -/
theorem findBestMatch_eq_foldl (lookup : DnsName) (zones : List ZoneInfo) :
    findBestMatch lookup zones = zones.foldl (keepBest (fun z => zoneMatches lookup z.name = true)
      (fun z => byteLength z.name)) none := by
  unfold findBestMatch
  congr
  funext best zone
  unfold keepBest
  cases best <;> rfl

/-! ## The loop with its slices -/

namespace Sliced

/-- The `is_match` of one zone; none where a slice is not at a character boundary. -/
def isMatch (lookup zoneName : DnsName) : Option Bool :=
  match stripWildcard zoneName with
  | some stripped =>
      if stripped.isSuffixOf lookup then
        let diff := byteLength lookup - byteLength stripped
        (Utf8.splitAt diff lookup).map fun parts => parts.1.contains '.'
      else some false
  | none =>
      if lookup = zoneName then some true
      else if byteLength lookup > byteLength zoneName then
        let idx := byteLength lookup - byteLength zoneName - 1
        if (Utf8.bytes lookup)[idx]? = some '.'.val.toUInt8 then
          (Utf8.splitAt (idx + 1) lookup).map fun parts => parts.2 == zoneName
        else some false
      else some false

/-- The body of the loop: the best match is an identifier, a name and the length of
the name. -/
def visit (lookup : DnsName) (bestMatch : Option (DnsName × DnsName × Nat)) (zone : ZoneInfo) :
    Option (Option (DnsName × DnsName × Nat)) :=
  (isMatch lookup zone.name).map fun isMatch =>
    if isMatch then
      let len := byteLength zone.name
      match bestMatch with
      | none => some (zone.id, zone.name, len)
      | some (_, _, currLen) => if len > currLen then some (zone.id, zone.name, len) else bestMatch
    else bestMatch

/-- `find_best_match`; none where it slices inside a character. -/
def findBestMatch (lookup : DnsName) (zones : List ZoneInfo) :
    Option (Option (DnsName × DnsName)) :=
  (zones.foldlM (visit lookup) none).map fun bestMatch =>
    bestMatch.map fun (zoneId, zoneName, _) => (zoneId, zoneName)

/-- `str::len` counts bytes. -/
theorem byteLength_eq_size (name : DnsName) : byteLength name = Utf8.size name := rfl

/-- How a wildcard zone is matched. -/
theorem isMatch_wildcard {lookup zoneName stripped : DnsName}
    (hwild : stripWildcard zoneName = some stripped) :
    isMatch lookup zoneName = some (zoneMatches lookup zoneName) := by
  simp only [isMatch, zoneMatches, hwild, stripSuffix]
  by_cases hsuffix : stripped.isSuffixOf lookup = true
  · rw [if_pos hsuffix, if_pos hsuffix]
    obtain ⟨front, rfl⟩ := List.isSuffixOf_iff_suffix.mp hsuffix
    have hdiff : byteLength (front ++ stripped) - byteLength stripped = Utf8.size front := by
      simp [byteLength_eq_size]
    rw [hdiff, Utf8.splitAt_append]
    simp
  · rw [if_neg hsuffix, if_neg hsuffix]

/-- How any other zone is matched. -/
theorem isMatch_plain {lookup zoneName : DnsName} (hplain : stripWildcard zoneName = none) :
    isMatch lookup zoneName = some (zoneMatches lookup zoneName) := by
  have hdot : '.'.utf8Size = 1 := by decide
  simp only [isMatch, zoneMatches, hplain]
  by_cases heq : lookup = zoneName
  · simp [heq]
  · have hfront : ∀ front, lookup = front ++ '.' :: zoneName →
        Utf8.size front = byteLength lookup - byteLength zoneName - 1 ∧
          byteLength lookup > byteLength zoneName := by
      intro front hlookup
      simp only [hlookup, byteLength_eq_size, Utf8.size_append, Utf8.size_cons, hdot]
      omega
    have hresult : ∀ b, (('.' :: zoneName) <:+ lookup ↔ b = true) →
        some b = some (lookup == zoneName || ('.' :: zoneName).isSuffixOf lookup) := by
      intro b hb
      rw [beq_false_of_ne heq, Bool.false_or, Option.some.injEq, Bool.eq_iff_iff, ← hb,
        List.isSuffixOf_iff_suffix]
    rw [if_neg heq]
    by_cases hlen : byteLength lookup > byteLength zoneName
    · rw [if_pos hlen]
      by_cases hbyte : (Utf8.bytes lookup)[byteLength lookup - byteLength zoneName - 1]? =
          some '.'.val.toUInt8
      · rw [if_pos hbyte]
        obtain ⟨a, b, hlookup, hsize⟩ := Utf8.exists_append_of_getElem?_bytes hdot hbyte
        have hsplit : Utf8.splitAt (byteLength lookup - byteLength zoneName - 1 + 1) lookup =
            some (a ++ ['.'], b) := by
          have h := Utf8.splitAt_append (a ++ ['.']) b
          rw [Utf8.size_append, Utf8.size_cons, hdot, Utf8.size_nil, hsize, Nat.add_zero,
            List.append_assoc, List.singleton_append, ← hlookup] at h
          exact h
        rw [hsplit]
        apply hresult
        rw [beq_iff_eq]
        constructor
        · intro ⟨front, hsuffix⟩
          have hsame := (hfront front hsuffix.symm).1.trans hsize.symm
          have hparts := Utf8.append_inj (hsuffix.trans hlookup) hsame
          exact (List.cons.inj hparts.2).2.symm
        · intro hb
          exact ⟨a, by rw [hlookup, ← hb]⟩
      · rw [if_neg hbyte]
        apply hresult
        refine ⟨?_, fun h => absurd h (by decide)⟩
        intro ⟨front, hsuffix⟩
        have h := Utf8.getElem?_bytes_of_eq_append hdot front zoneName
        rw [hsuffix, (hfront front hsuffix.symm).1] at h
        exact absurd h hbyte
    · rw [if_neg hlen]
      apply hresult
      refine ⟨?_, fun h => absurd h (by decide)⟩
      intro ⟨front, hsuffix⟩
      exact absurd (hfront front hsuffix.symm).2 hlen

/-- No slice is inside a character, and the match is that of the characters. -/
theorem isMatch_eq (lookup zoneName : DnsName) :
    isMatch lookup zoneName = some (zoneMatches lookup zoneName) := by
  cases hwild : stripWildcard zoneName with
  | some stripped => exact isMatch_wildcard hwild
  | none => exact isMatch_plain hwild

/-- The best match as the loop keeps it. -/
def entry (zone : ZoneInfo) : DnsName × DnsName × Nat :=
  (zone.id, zone.name, byteLength zone.name)

/-- One pass of the loop keeps the better zone. -/
theorem visit_eq (lookup : DnsName) (best : Option ZoneInfo) (zone : ZoneInfo) :
    visit lookup (best.map entry) zone = some ((keepBest (fun z => zoneMatches lookup z.name = true)
      (fun z => byteLength z.name) best zone).map entry) := by
  rw [visit, isMatch_eq, Option.map_some, Option.some.injEq]
  unfold keepBest
  by_cases hmatch : zoneMatches lookup zone.name = true
  · simp only [hmatch, ↓reduceIte]
    cases best with
    | none => rfl
    | some current =>
        simp only [Option.map_some, entry]
        split <;> rfl
  · simp only [hmatch]
    rfl

/-- The whole loop keeps the best zone. -/
theorem foldlM_visit (lookup : DnsName) (zones : List ZoneInfo) (best : Option ZoneInfo) :
    zones.foldlM (visit lookup) (best.map entry) =
      some ((zones.foldl (keepBest (fun z => zoneMatches lookup z.name = true)
        (fun z => byteLength z.name)) best).map entry) := by
  induction zones generalizing best with
  | nil => rfl
  | cons zone zones ih =>
      rw [List.foldlM_cons, visit_eq]
      exact ih _

/-- **No slice inside a character.**  The loop over the bytes has a result, and it is
that of the loop over the characters. -/
theorem findBestMatch_eq (lookup : DnsName) (zones : List ZoneInfo) :
    findBestMatch lookup zones =
      some ((StatusListServer.findBestMatch lookup zones).map fun z => (z.id, z.name)) := by
  have hloop : zones.foldlM (visit lookup) none = _ := foldlM_visit lookup zones none
  rw [findBestMatch, hloop, Option.map_some, Option.map_map, findBestMatch_eq_foldl]
  rfl

end Sliced

/-! ## Whole labels -/

/-- A zone matches on whole labels: a plain zone its own name and the names under it,
a wildcard zone the names under its stripped name. -/
def ZoneCovers (lookup zoneName : DnsName) : Prop :=
  match stripWildcard zoneName with
  | some stripped => ∃ front, front ≠ [] ∧ lookup = front ++ '.' :: stripped
  | none => lookup = zoneName ∨ ('.' :: zoneName) <:+ lookup

/-- A wildcard zone whose stripped name ends the lookup name after a dot somewhere,
but not after a label and its dot. -/
def Overreaches (lookup zoneName : DnsName) : Prop :=
  ∃ stripped front, stripWildcard zoneName = some stripped ∧ lookup = front ++ stripped ∧
    '.' ∈ front ∧ ∀ label, label ≠ [] → front ≠ label ++ ['.']

/-- What is asked of the choice: a result, which is a zone if some zone covers the
name, and then the first one of greatest length among those that do. -/
def SelectsZone (lookup : DnsName) (zones : List ZoneInfo)
    (result : Option (Option (DnsName × DnsName))) : Prop :=
  ∃ selected, result = some selected ∧
    (selected.isSome = true ↔ ∃ zone ∈ zones, ZoneCovers lookup zone.name) ∧
    ∀ zoneId zoneName, selected = some (zoneId, zoneName) →
      FirstBest (fun z => ZoneCovers lookup z.name) (fun z => byteLength z.name) zones
        ⟨zoneName, zoneId⟩

/-- Every zone that overreaches gives way to a zone that covers the name: a longer
one, or an earlier one of the same length. -/
def Yields (lookup : DnsName) (zones : List ZoneInfo) : Prop :=
  ∀ before zone after, zones = before ++ zone :: after → Overreaches lookup zone.name →
    (∃ z ∈ before, ZoneCovers lookup z.name ∧ byteLength zone.name ≤ byteLength z.name) ∨
    ∃ z ∈ after, ZoneCovers lookup z.name ∧ byteLength zone.name < byteLength z.name

/-- When a zone matches: it covers the name, or overreaches. -/
theorem zoneMatches_iff (lookup zoneName : DnsName) :
    zoneMatches lookup zoneName = true ↔
      ZoneCovers lookup zoneName ∨ Overreaches lookup zoneName := by
  unfold zoneMatches ZoneCovers Overreaches
  cases stripWildcard zoneName with
  | none => simp [List.isSuffixOf_iff_suffix]
  | some stripped =>
      constructor
      · intro h
        by_cases hsuffix : stripped.isSuffixOf lookup = true
        · obtain ⟨front, rfl⟩ := List.isSuffixOf_iff_suffix.mp hsuffix
          have hdot : '.' ∈ front := by simpa [stripSuffix, hsuffix] using h
          by_cases hlabel : ∃ label, label ≠ [] ∧ front = label ++ ['.']
          · obtain ⟨label, hne, rfl⟩ := hlabel
            exact .inl ⟨label, hne, by simp⟩
          · refine .inr ⟨stripped, front, rfl, rfl, hdot, ?_⟩
            intro label hne hfront
            exact hlabel ⟨label, hne, hfront⟩
        · simp [stripSuffix, hsuffix] at h
      · have hmatches : ∀ front : DnsName, '.' ∈ front →
            (match stripSuffix stripped (front ++ stripped) with
              | some front => front.contains '.'
              | none => false) = true := by
          intro front hdot
          have hsuffix : stripped.isSuffixOf (front ++ stripped) = true :=
            List.isSuffixOf_iff_suffix.mpr ⟨front, rfl⟩
          simpa [stripSuffix, hsuffix] using hdot
        intro h
        rcases h with ⟨front, _, rfl⟩ | ⟨_, front, hsome, rfl, hdot, _⟩
        · have h := hmatches (front ++ ['.']) (by simp)
          rwa [List.append_assoc, List.singleton_append] at h
        · cases hsome
          exact hmatches front hdot

/-- A zone that overreaches does not cover the name. -/
theorem not_covers_of_overreaches {lookup zoneName : DnsName} (h : Overreaches lookup zoneName) :
    ¬ ZoneCovers lookup zoneName := by
  obtain ⟨stripped, front, hwild, rfl, _, hlabel⟩ := h
  unfold ZoneCovers
  rw [hwild]
  intro ⟨label, hne, heq⟩
  apply hlabel label hne
  refine (List.append_left_inj stripped).mp ?_
  rw [heq, List.append_assoc, List.singleton_append]

/-- What `find_best_match` picks. -/
theorem findBestMatch_isBest (lookup : DnsName) (zones : List ZoneInfo) :
    IsBest (fun z => zoneMatches lookup z.name = true) (fun z => byteLength z.name) zones
      (findBestMatch lookup zones) := by
  rw [findBestMatch_eq_foldl]
  exact isBest_foldl zones

/-- **The choice of a zone.**  `find_best_match` never slices inside a character.  It
picks the first longest zone that covers the name exactly when every wildcard zone
that overreaches gives way to a zone that covers it. -/
theorem find_best_match_selects_iff (lookup : DnsName) (zones : List ZoneInfo) :
    (∃ selected, Sliced.findBestMatch lookup zones = some selected) ∧
    (SelectsZone lookup zones (Sliced.findBestMatch lookup zones) ↔ Yields lookup zones) := by
  rw [Sliced.findBestMatch_eq]
  refine ⟨⟨_, rfl⟩, ?_⟩
  have hbest := findBestMatch_isBest lookup zones
  constructor
  · intro ⟨selected, hselected, hsome, hfirst⟩ before zone after hzones hover
    cases hselected
    have hmatch : zoneMatches lookup zone.name = true := (zoneMatches_iff _ _).mpr (.inr hover)
    cases hpick : findBestMatch lookup zones with
    | none =>
        rw [hpick] at hbest
        exact absurd hmatch (hbest zone (by simp [hzones]))
    | some pick =>
        rw [hpick] at hbest hfirst
        obtain ⟨_, _, _, hcovers, _, _⟩ := hfirst pick.id pick.name rfl
        have hother : zone ≠ pick := fun h => not_covers_of_overreaches hover (h ▸ hcovers)
        have hpicked : FirstBest (fun z => zoneMatches lookup z.name = true)
            (fun z => byteLength z.name) zones pick := hbest
        obtain ⟨hmem, hlen⟩ | ⟨hmem, hlen⟩ := hpicked.beats hzones hmatch hother
        · exact .inl ⟨pick, hmem, hcovers, hlen⟩
        · exact .inr ⟨pick, hmem, hcovers, hlen⟩
  · intro hyields
    refine ⟨_, rfl, ?_⟩
    cases hpick : findBestMatch lookup zones with
    | none =>
        rw [hpick] at hbest
        refine ⟨⟨fun h => absurd h (by simp), ?_⟩, fun _ _ h => absurd h (by simp)⟩
        intro ⟨zone, hzone, hcovers⟩
        exact absurd ((zoneMatches_iff _ _).mpr (.inl hcovers)) (hbest zone hzone)
    | some pick =>
        rw [hpick] at hbest
        obtain ⟨before, after, hzones, hmatch, hbefore, hafter⟩ := hbest
        have hcovers : ZoneCovers lookup pick.name := by
          obtain hcovers | hover := (zoneMatches_iff _ _).mp hmatch
          · exact hcovers
          · obtain ⟨z, hz, hc, hlen⟩ | ⟨z, hz, hc, hlen⟩ := hyields before pick after hzones hover
            · have hshorter := hbefore z hz ((zoneMatches_iff _ _).mpr (.inl hc))
              exact absurd hlen (Nat.not_le.mpr hshorter)
            · have hshorter := hafter z hz ((zoneMatches_iff _ _).mpr (.inl hc))
              exact absurd hlen (Nat.not_lt.mpr hshorter)
        refine ⟨⟨fun _ => ⟨pick, by simp [hzones], hcovers⟩, fun _ => rfl⟩, ?_⟩
        intro zoneId zoneName hsame
        cases hsame
        refine ⟨before, after, hzones, hcovers, ?_, ?_⟩
        · intro z hz hc
          exact hbefore z hz ((zoneMatches_iff _ _).mpr (.inl hc))
        · intro z hz hc
          exact hafter z hz ((zoneMatches_iff _ _).mpr (.inl hc))

/-- A wildcard zone of `example.com`. -/
def wildcardZone : ZoneInfo := .new ('*' :: '.' :: exampleCom) ['Z', '1']

/-- `www.badexample.com` -/
def badExampleCom : DnsName := ['w', 'w', 'w', '.', 'b', 'a', 'd'] ++ exampleCom

/-- A zone of another domain is picked: `*.example.com` for `www.badexample.com`. -/
theorem unrelated_zone_selected :
    ¬ SelectsZone badExampleCom [wildcardZone]
      (Sliced.findBestMatch badExampleCom [wildcardZone]) := by
  intro ⟨selected, hselected, hsome, _⟩
  have hresult : Sliced.findBestMatch badExampleCom [wildcardZone] =
      some (some (['Z', '1'], '*' :: '.' :: exampleCom)) := by decide
  rw [hresult] at hselected
  cases hselected
  obtain ⟨zone, hzone, hcovers⟩ := hsome.mp rfl
  rw [List.mem_singleton.mp hzone] at hcovers
  obtain ⟨front, _, hfront⟩ := hcovers
  have hlast : (['w', 'w', 'w', '.', 'b', 'a'] : DnsName) ++ 'd' :: exampleCom =
      front ++ '.' :: exampleCom := hfront
  have hparts := List.append_inj' hlast rfl
  exact absurd (List.cons.inj hparts.2).1 (by decide)

end StatusListServer
