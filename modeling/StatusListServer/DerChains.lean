import StatusListServer.CertMaterial
import StatusListServer.WhileLoop

/-!
# Chains of DER certificates

`cert_der_chain_to_pem` splits one certificate after the other off the front of its
input, as long as there is any.  The X.509 parser is a library; what is used of it is
that the bytes after a certificate are the end of the bytes before it.

The loop then ends on every input.  A chain that is accepted is split without loss,
and an input that is not a chain of certificates gives an error.
-/

namespace StatusListServer

open BitStream

/-- The variables of the loop. -/
structure ChainState where
  remaining : List Byte
  certs : List Pem
  validity : Option (Int × Int)
deriving DecidableEq, Repr

section Loop

variable (lib : Libraries)

/-- One round of the loop, which is over when nothing remains. -/
def chainRound (s : ChainState) : Option (Except CertError ChainState) :=
  match s.remaining with
  | [] => none
  | b :: bs =>
      match lib.parseX509Certificate (b :: bs) with
      | .error e => some (.error (.parsing ("invalid DER certificate chain: " ++ e)))
      | .ok (next, cert) =>
          let consumed := (b :: bs).length - next.length
          if consumed = 0 then
            some (.error (.parsing "invalid DER certificate chain: parser made no progress"))
          else
            some (.ok {
              remaining := next
              certs := s.certs ++ [⟨"CERTIFICATE", (b :: bs).take consumed⟩]
              validity := s.validity.or (some (cert.notBefore, cert.notAfter)) })

/-- What is returned after the loop. -/
def chainResult : Except CertError ChainState → Except CertError (String × Int × Int)
  | .error e => .error e
  | .ok s =>
      match s.validity with
      | none => .error (.parsing "empty DER certificate chain")
      | some (validFrom, expiresAt) => .ok (lib.encodeMany s.certs, validFrom, expiresAt)

/-- The bytes after a certificate are the end of the bytes before it. -/
def Libraries.RestIsSuffix : Prop :=
  ∀ der rest x509, lib.parseX509Certificate der = .ok (rest, x509) → rest <:+ der

variable {lib}

/-- What a round that goes on has done. -/
theorem chainRound_eq_ok {s s' : ChainState} (h : chainRound lib s = some (.ok s')) :
    ∃ next cert, lib.parseX509Certificate s.remaining = .ok (next, cert) ∧
      next.length < s.remaining.length ∧
      s' = {
        remaining := next
        certs := s.certs ++
          [⟨"CERTIFICATE", s.remaining.take (s.remaining.length - next.length)⟩]
        validity := s.validity.or (some (cert.notBefore, cert.notAfter)) } := by
  unfold chainRound at h
  split at h
  · cases h
  · next b bs hremaining =>
      rw [hremaining]
      split at h
      · cases h
      · next next cert hparse =>
          dsimp only at h
          split at h
          · cases h
          · next hconsumed =>
              cases h
              exact ⟨next, cert, hparse, by omega, rfl⟩

variable (lib) in
/-- The loop ends on every input. -/
theorem chainRound_ends (s : ChainState) : ∃ result, WhileLoop.Ends (chainRound lib) s result := by
  refine WhileLoop.exists_ends (fun s => s.remaining.length) (fun s s' h => ?_) s
  obtain ⟨next, cert, -, hless, rfl⟩ := chainRound_eq_ok h
  exact hless

/-- A round of the loop as it is run with fuel. -/
theorem splitDerChain_succ (fuel : Nat) (s : ChainState) :
    splitDerChain lib (fuel + 1) s.remaining s.certs s.validity =
      match chainRound lib s with
      | none => .ok (s.certs, s.validity)
      | some (.error e) => .error e
      | some (.ok s') => splitDerChain lib fuel s'.remaining s'.certs s'.validity := by
  obtain ⟨remaining, certs, validity⟩ := s
  cases remaining with
  | nil => rfl
  | cons b bs =>
      simp only [splitDerChain, chainRound]
      cases lib.parseX509Certificate (b :: bs) with
      | error e => rfl
      | ok parsed =>
          dsimp only
          split
          · rfl
          · rfl

/-- The loop ends when nothing remains. -/
theorem remaining_of_chainRound_none {s : ChainState} (h : chainRound lib s = none) :
    s.remaining = [] := by
  unfold chainRound at h
  split at h
  · assumption
  · split at h
    · cases h
    · dsimp only at h
      split at h <;> cases h

variable (lib) in
/-- The loop with enough fuel ends as the loop does. -/
theorem ends_splitDerChain (fuel : Nat) (s : ChainState) (hfuel : s.remaining.length ≤ fuel) :
    WhileLoop.Ends (chainRound lib) s
      ((splitDerChain lib fuel s.remaining s.certs s.validity).map fun r => ⟨[], r.1, r.2⟩) := by
  induction fuel generalizing s with
  | zero =>
      obtain ⟨remaining, certs, validity⟩ := s
      obtain rfl := List.eq_nil_of_length_eq_zero (Nat.le_zero.mp hfuel)
      exact .done rfl
  | succ fuel ih =>
      rw [splitDerChain_succ]
      cases hround : chainRound lib s with
      | none =>
          obtain ⟨remaining, certs, validity⟩ := s
          obtain rfl := remaining_of_chainRound_none hround
          exact .done hround
      | some result =>
          cases result with
          | error e => exact .failed hround
          | ok s' =>
              obtain ⟨next, cert, -, hless, rfl⟩ := chainRound_eq_ok hround
              have hnext : next.length ≤ fuel := by omega
              exact .next hround (ih _ hnext)

/-- **What the code returns is what the loop ends with**, with no bound on its
rounds. -/
theorem certDerChainToPem_of_ends {der : List Byte} {result : Except CertError ChainState}
    (h : WhileLoop.Ends (chainRound lib) ⟨der, [], none⟩ result) :
    certDerChainToPem lib der = chainResult lib result := by
  have hfuel := ends_splitDerChain lib der.length ⟨der, [], none⟩ (Nat.le_refl _)
  rw [h.unique hfuel]
  unfold certDerChainToPem
  cases splitDerChain lib der.length der [] none with
  | error e => rfl
  | ok parts =>
      obtain ⟨certs, validity⟩ := parts
      cases validity with
      | none => rfl
      | some window => rfl

/-! ## Nothing is lost -/

/-- The state of the loop on its way through a chain: the blocks are certificates that
make up the bytes before what remains, and the validity is that of the first one. -/
structure SplitOff (lib : Libraries) (der : List Byte) (s : ChainState) : Prop where
  lossless : s.certs.flatMap Pem.contents ++ s.remaining = der
  certificate : ∀ cert ∈ s.certs, cert.label = "CERTIFICATE" ∧
    ∃ input rest x509, lib.parseX509Certificate input = .ok (rest, x509) ∧
      input = cert.contents ++ rest ∧ input <:+ der
  start : s.certs = [] → s.validity = none
  first : ∀ cert, s.certs.head? = some cert → ∃ rest x509,
    lib.parseX509Certificate der = .ok (rest, x509) ∧ der = cert.contents ++ rest ∧
    s.validity = some (x509.notBefore, x509.notAfter)

/-- At the start nothing is split off. -/
theorem splitOff_start (der : List Byte) : SplitOff lib der ⟨der, [], none⟩ where
  lossless := rfl
  certificate := fun cert h => absurd h List.not_mem_nil
  start := fun _ => rfl
  first := fun cert h => by cases h

/-- A round splits one certificate off. -/
theorem SplitOff.round (hsuffix : lib.RestIsSuffix) {der : List Byte} {s s' : ChainState}
    (h : SplitOff lib der s) (hround : chainRound lib s = some (.ok s')) : SplitOff lib der s' := by
  obtain ⟨next, cert, hparse, hless, rfl⟩ := chainRound_eq_ok hround
  obtain ⟨front, hfront⟩ := hsuffix _ _ _ hparse
  have hcut : s.remaining.take (s.remaining.length - next.length) = front := by
    rw [← hfront]
    simp
  rw [hcut]
  refine ⟨?_, ?_, ?_, ?_⟩
  · rw [← h.lossless, ← hfront]
    simp
  · intro block hblock
    rcases List.mem_append.mp hblock with hblock | hblock
    · exact h.certificate block hblock
    · obtain rfl := List.mem_singleton.mp hblock
      exact ⟨rfl, s.remaining, next, cert, hparse, hfront.symm, ⟨_, h.lossless⟩⟩
  · intro hnil
    simp at hnil
  · intro block hblock
    cases hcerts : s.certs with
    | nil =>
        rw [hcerts] at hblock
        cases hblock
        have hremaining : s.remaining = der := by simpa [hcerts] using h.lossless
        rw [hremaining] at hparse hfront
        exact ⟨next, cert, hparse, hfront.symm, by simp [h.start hcerts]⟩
    | cons first certs =>
        rw [hcerts, List.cons_append] at hblock
        cases hblock
        obtain ⟨rest, x509, hfirst, hder, hvalidity⟩ := h.first block (by simp [hcerts])
        exact ⟨rest, x509, hfirst, hder, by simp [hvalidity]⟩

/-- What is returned when nothing remains. -/
theorem SplitOff.result {der : List Byte} {s : ChainState} (h : SplitOff lib der s)
    (hremaining : s.remaining = []) {pem : String} {validFrom expiresAt : Int}
    (hok : chainResult lib (.ok s) = .ok (pem, validFrom, expiresAt)) :
    ∃ first others rest x509, s.certs = first :: others ∧ pem = lib.encodeMany s.certs ∧
      s.certs.flatMap Pem.contents = der ∧ lib.parseX509Certificate der = .ok (rest, x509) ∧
      der = first.contents ++ rest ∧ validFrom = x509.notBefore ∧ expiresAt = x509.notAfter := by
  have hlossless : s.certs.flatMap Pem.contents = der := by simpa [hremaining] using h.lossless
  cases hcerts : s.certs with
  | nil =>
      rw [chainResult, h.start hcerts] at hok
      cases hok
  | cons first others =>
      obtain ⟨rest, x509, hparse, hder, hvalidity⟩ := h.first first (by simp [hcerts])
      rw [chainResult, hvalidity] at hok
      cases hok
      rw [← hcerts]
      exact ⟨first, others, rest, x509, hcerts, rfl, hlossless, hparse, hder, rfl, rfl⟩

/-- Bytes that are no certificate end the loop with an error, and so does a parser that
takes none of them. -/
theorem chainRound_of_not_certificate {s : ChainState} (hremaining : s.remaining ≠ [])
    (h : ∀ rest x509, lib.parseX509Certificate s.remaining = .ok (rest, x509) →
      rest = s.remaining) :
    ∃ e, chainRound lib s = some (.error e) := by
  unfold chainRound
  split
  · next hnil => exact absurd hnil hremaining
  · next b bs hcons =>
      rw [hcons] at h
      split
      · exact ⟨_, rfl⟩
      · next rest x509 hparse =>
          obtain rfl := h rest x509 hparse
          rw [Nat.sub_self]
          exact ⟨_, rfl⟩

/-- **A DER chain is split without loss.**  On every input the loop ends, and the
code returns what it ends with.  A result has one or more `CERTIFICATE` blocks, each a
certificate of the input and together the input, and the validity of the first; no
result comes of an empty input, or of one that leads to bytes that are no certificate
or of which the parser takes none. -/
theorem certDerChainToPem_lossless (lib : Libraries) (hsuffix : lib.RestIsSuffix)
    (der : List Byte) :
    (∃ result, WhileLoop.Ends (chainRound lib) ⟨der, [], none⟩ result ∧
      certDerChainToPem lib der = chainResult lib result) ∧
    (∀ pem validFrom expiresAt, certDerChainToPem lib der = .ok (pem, validFrom, expiresAt) →
      ∃ first others rest x509, pem = lib.encodeMany (first :: others) ∧
        (first :: others).flatMap Pem.contents = der ∧
        (∀ cert ∈ first :: others, cert.label = "CERTIFICATE" ∧
          ∃ input rest x509, lib.parseX509Certificate input = .ok (rest, x509) ∧
            input = cert.contents ++ rest ∧ input <:+ der) ∧
        lib.parseX509Certificate der = .ok (rest, x509) ∧ der = first.contents ++ rest ∧
        validFrom = x509.notBefore ∧ expiresAt = x509.notAfter) ∧
    (der = [] → certDerChainToPem lib der = .error (.parsing "empty DER certificate chain")) ∧
    (∀ s, WhileLoop.Reaches (chainRound lib) ⟨der, [], none⟩ s → s.remaining ≠ [] →
      (∀ rest x509, lib.parseX509Certificate s.remaining = .ok (rest, x509) →
        rest = s.remaining) →
      ∃ e, certDerChainToPem lib der = .error e) := by
  obtain ⟨result, hends⟩ := chainRound_ends lib ⟨der, [], none⟩
  refine ⟨⟨result, hends, certDerChainToPem_of_ends hends⟩, ?_, ?_, ?_⟩
  · intro pem validFrom expiresAt hok
    rw [certDerChainToPem_of_ends hends] at hok
    cases result with
    | error e => cases hok
    | ok s =>
        obtain ⟨hreach, hover⟩ := hends.reaches
        have hsplit := hreach.invariant (splitOff_start der) fun _ _ => SplitOff.round hsuffix
        obtain ⟨first, others, rest, x509, hcerts, hpem, hlossless, hparse, hder, hfrom, hto⟩ :=
          hsplit.result (remaining_of_chainRound_none hover) hok
        have hcertificate := hsplit.certificate
        rw [hcerts] at hpem hlossless hcertificate
        exact ⟨first, others, rest, x509, hpem, hlossless, hcertificate, hparse, hder, hfrom, hto⟩
  · rintro rfl
    rfl
  · intro s hreach hremaining hparse
    obtain ⟨e, hround⟩ := chainRound_of_not_certificate hremaining hparse
    exact ⟨e, certDerChainToPem_of_ends (.of_reaches hreach (.failed hround))⟩

end Loop

/-! ## A chain of two certificates -/

/-- A parser that finds the certificates of the sample keys at the front of its
input. -/
def chainLibraries : Libraries :=
  { sampleLibraries with
    parseX509Certificate := fun der =>
      match SampleKey.find SampleKey.certificate (der.take 258) with
      | some k => .ok (der.drop 258, ⟨k.publicKey, 1794964017, 1826500017⟩)
      | none => .error "invalid certificate" }

/-- The sample parser leaves a suffix. -/
theorem chainLibraries_restIsSuffix : chainLibraries.RestIsSuffix := by
  intro der rest x509 h
  simp only [chainLibraries] at h
  split at h
  · cases h
    exact List.drop_suffix 258 der
  · cases h

/-- A sample certificate is split off the front. -/
theorem chainLibraries_parse {k : SampleKey} (hk : k.Known) (rest : List Byte) :
    chainLibraries.parseX509Certificate (k.certificate ++ rest) =
      .ok (rest, ⟨k.publicKey, 1794964017, 1826500017⟩) := by
  have hlength := SampleKey.length_certificate (k := k)
  have htake : (k.certificate ++ rest).take 258 = k.certificate := by simp [← hlength]
  have hdrop : (k.certificate ++ rest).drop 258 = rest := by simp [← hlength]
  simp only [chainLibraries, htake, hdrop, hk.find_eq SampleKey.certificate_ne]

/-- A round that reads a sample certificate. -/
theorem chainRound_sample {k : SampleKey} (hk : k.Known) (rest : List Byte) (certs : List Pem)
    (validity : Option (Int × Int)) :
    chainRound chainLibraries ⟨k.certificate ++ rest, certs, validity⟩ =
      some (.ok ⟨rest, certs ++ [⟨"CERTIFICATE", k.certificate⟩],
        validity.or (some (1794964017, 1826500017))⟩) := by
  have hparse := chainLibraries_parse hk rest
  have hconsumed : (k.certificate ++ rest).length - rest.length = k.certificate.length := by simp
  have hpos : k.certificate.length ≠ 0 := by simp [k.length_certificate]
  unfold chainRound
  split
  · next hnil => exact absurd (List.append_eq_nil_iff.mp hnil).1 k.certificate_ne_nil
  · next b bs hcons =>
      have hcons : k.certificate ++ rest = b :: bs := hcons
      rw [← hcons, hparse]
      dsimp only
      rw [hconsumed, if_neg hpos, List.take_left]

/-- Two certificates in a row. -/
theorem certDerChainToPem_sample :
    certDerChainToPem chainLibraries (firstKey.certificate ++ secondKey.certificate) =
      .ok (chainLibraries.encodeMany
        [⟨"CERTIFICATE", firstKey.certificate⟩, ⟨"CERTIFICATE", secondKey.certificate⟩],
        1794964017, 1826500017) := by
  have hsecond := chainRound_sample (.inr rfl) [] [⟨"CERTIFICATE", firstKey.certificate⟩]
    (some (1794964017, 1826500017))
  rw [List.append_nil] at hsecond
  exact certDerChainToPem_of_ends
    (.next (chainRound_sample (.inl rfl) _ [] none) (.next hsecond (.done rfl)))

/-- The two certificates come back as two blocks with an empty line between them. -/
theorem certDerChainToPem_lossless_sample :
    chainLibraries.RestIsSuffix ∧
    ∃ pem, certDerChainToPem chainLibraries (firstKey.certificate ++ secondKey.certificate) =
        .ok (pem, 1794964017, 1826500017) ∧
      pem = "\r\n".intercalate [firstKey.certificatePem, secondKey.certificatePem] ∧
      ∃ certs, pem = chainLibraries.encodeMany certs ∧
        certs.flatMap Pem.contents = firstKey.certificate ++ secondKey.certificate := by
  obtain ⟨-, hresult, -⟩ := certDerChainToPem_lossless chainLibraries chainLibraries_restIsSuffix
    (firstKey.certificate ++ secondKey.certificate)
  obtain ⟨first, others, _, _, hpem, hlossless, -⟩ := hresult _ _ _ certDerChainToPem_sample
  have hencode : chainLibraries.encodeMany = sampleLibraries.encodeMany := rfl
  have hjoined := SampleKey.encodeMany_certificates [firstKey, secondKey]
  rw [← hencode] at hjoined
  simp only [List.map_cons, List.map_nil] at hjoined
  exact ⟨chainLibraries_restIsSuffix, _, certDerChainToPem_sample, hjoined, first :: others, hpem,
    hlossless⟩

end StatusListServer
