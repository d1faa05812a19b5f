import Mathlib.Logic.Function.Basic
import StatusListServer.CertMaterial

/-!
# Reloading the signing certificate and its key

`ReloadingCertificateProvider` (`outbound/cert.rs`) serves token signing material from two
files: it loads and validates them at startup, and `spawn_cert_rotation` (`setup.rs`) lets the
file watcher of `utils/file_watcher.rs` load them again when their fingerprints change.  The
files are read one after the other, for a load as for the fingerprints, and may be written
between any two reads, one alone or both at once.  A load that fails leaves the active
material as it is.  The watcher is the native one, of which every write of a file makes an
event; polling, its fallback, is left out.

* `certificates_never_mixed` — whatever is written and when, the material that is served is a
  matching pair, and of one version, if versions have public keys of their own, and it changes
  only when a load succeeds;
* `certificate_rotation_takes_effect` — when the watcher has come to rest, a valid pair in the
  files is the one that is served, if a write brings contents that the files have not had.
-/

namespace StatusListServer

namespace CertReload

open BitStream

/-! ## The provider -/

/-- The two files of the certificate. -/
inductive WatchedFile
  | certificate
  | signingKey
deriving DecidableEq, Repr

/-- What reading a file gives. -/
abbrev FileContent := Except String (List Byte)

/-- What the two files hold. -/
abbrev KeyFiles := WatchedFile → FileContent

section Provider

variable (lib : Libraries)

/-- `fs::read_to_string`: the bytes have to be UTF-8. -/
def readToString : FileContent → Except String String
  | .error e => .error e
  | .ok bytes =>
      match fromUtf8 lib bytes with
      | .ok text => .ok text
      | .error _ => .error "stream did not contain valid UTF-8"

/-- The base64 DER parts of a PEM chain that has some. -/
def pemChainToBase64Der (certPem : String) : Except String (List String) := do
  let certs ← (lib.pemBlocks certPem).mapM fun block =>
    match block with
    | .ok pem => Except.ok (base64Standard pem.contents)
    | .error e => .error e
  if certs.isEmpty then
    .error "certificate chain is empty"
  else
    return certs

/-- The material of two texts that belong together: what the inline provider serves, and how
a load from files ends. -/
def validatedMaterial (certPem signingKeyPem : String) : Except String SigningMaterial := do
  validateSigningMaterial lib certPem signingKeyPem
  let certificateChain ← pemChainToBase64Der lib certPem
  return ⟨some certificateChain, signingKeyPem⟩

/-- The rest of a load, after the certificate has been read. -/
def loadSigningKey (certPem : String) (signingKey : FileContent) :
    Except String SigningMaterial := do
  let signingKeyPem ← readToString lib signingKey
  validatedMaterial lib certPem signingKeyPem

/-- A load from files that nobody writes meanwhile. -/
def loadAndValidateSigningMaterial (files : KeyFiles) : Except String SigningMaterial := do
  let certPem ← readToString lib (files .certificate)
  loadSigningKey lib certPem (files .signingKey)

end Provider

/-! ## The watcher -/

section Watcher

variable {D : Type}

/-- The digest of a file, if it can be read. -/
def fingerprint (sha256 : List Byte → D) : FileContent → Option D
  | .ok bytes => some (sha256 bytes)
  | .error _ => none

/-- The digests of the two files; none of a file that could not be read. -/
abbrev Fingerprints (D : Type) := Option D × Option D

/-- The fingerprints of files that nobody writes meanwhile. -/
def fingerprintAll (sha256 : List Byte → D) (files : KeyFiles) : Fingerprints D :=
  (fingerprint sha256 (files .certificate), fingerprint sha256 (files .signingKey))

/-- Where the server stands: in the first load, or in the debouncer's loop with the
fingerprints it holds. -/
inductive Phase (D : Type)
  | starting
  | startingWith (certPem : String)
  | refused (reason : String)
  | unwatched
  | unstarted
  | baselining (certificate : Option D)
  | waiting (last : Fingerprints D)
  | draining (last : Fingerprints D)
  | settled (last : Fingerprints D)
  | fingerprinting (last : Fingerprints D) (certificate : Option D)
  | fingerprinted (last current : Fingerprints D)
  | dispatching (last : Fingerprints D)
  | loading (last : Fingerprints D) (certPem : String)
deriving DecidableEq, Repr

/-- The watcher is installed. -/
def Phase.watched : Phase D → Bool
  | .starting => false
  | .startingWith _ => false
  | .refused _ => false
  | .unwatched => false
  | _ => true

/-- The first load is over. -/
def Phase.loaded : Phase D → Bool
  | .starting => false
  | .startingWith _ => false
  | .refused _ => false
  | _ => true

/-- The debouncer has its baseline. -/
def Phase.tracking : Phase D → Bool
  | .unstarted => false
  | .baselining _ => false
  | phase => phase.watched

/-- A server that tracks its files watches them. -/
theorem watched_of_tracking {phase : Phase D} (h : phase.tracking = true) :
    phase.watched = true := by
  cases phase with
  | unstarted => rfl
  | baselining certificate => rfl
  | _ => exact h

/-- The files, the events not yet seen, the active material and what the watcher is doing. -/
structure Server (D : Type) where
  files : KeyFiles
  events : Nat
  active : Option SigningMaterial
  phase : Phase D

/-- A write of the files, an event without a change, or a step of the server. -/
inductive Action
  | write (files : KeyFiles)
  | spuriousEvent
  | readCertificate
  | readSigningKey
  | install
  | fingerprintCertificate
  | fingerprintSigningKey
  | receive
  | drain
  | settle
  | compare

namespace Server

/-- Before the first load. -/
def booting (files : KeyFiles) : Server D := ⟨files, 0, none, .starting⟩

section Steps

variable (lib : Libraries) (sha256 : List Byte → D) [DecidableEq D]

/-- One step.  A load that fails at startup ends the server; one that fails in the callback
leaves the active material. -/
def step (s : Server D) : Action → Option (Server D)
  | .write files =>
      some { s with
        files := files
        events := if s.phase.watched then s.events + 1 else s.events }
  | .spuriousEvent => if s.phase.watched then some { s with events := s.events + 1 } else none
  | .readCertificate =>
      match s.phase with
      | .starting =>
          match readToString lib (s.files .certificate) with
          | .ok certPem => some { s with phase := .startingWith certPem }
          | .error e => some { s with phase := .refused e }
      | .dispatching last =>
          match readToString lib (s.files .certificate) with
          | .ok certPem => some { s with phase := .loading last certPem }
          | .error _ => some { s with phase := .waiting last }
      | _ => none
  | .readSigningKey =>
      match s.phase with
      | .startingWith certPem =>
          match loadSigningKey lib certPem (s.files .signingKey) with
          | .ok material => some { s with active := some material, phase := .unwatched }
          | .error e => some { s with phase := .refused e }
      | .loading last certPem =>
          match loadSigningKey lib certPem (s.files .signingKey) with
          | .ok material => some { s with active := some material, phase := .waiting last }
          | .error _ => some { s with phase := .waiting last }
      | _ => none
  | .install =>
      match s.phase with
      | .unwatched => some { s with phase := .unstarted }
      | _ => none
  | .fingerprintCertificate =>
      let certificate := fingerprint sha256 (s.files .certificate)
      match s.phase with
      | .unstarted => some { s with phase := .baselining certificate }
      | .settled last => some { s with phase := .fingerprinting last certificate }
      | _ => none
  | .fingerprintSigningKey =>
      let signingKey := fingerprint sha256 (s.files .signingKey)
      match s.phase with
      | .baselining certificate => some { s with phase := .waiting (certificate, signingKey) }
      | .fingerprinting last certificate =>
          some { s with phase := .fingerprinted last (certificate, signingKey) }
      | _ => none
  | .receive =>
      match s.phase, s.events with
      | .waiting last, events + 1 => some { s with events := events, phase := .draining last }
      | _, _ => none
  | .drain =>
      match s.phase, s.events with
      | .draining _, events + 1 => some { s with events := events }
      | _, _ => none
  | .settle =>
      match s.phase, s.events with
      | .draining last, 0 => some { s with phase := .settled last }
      | _, _ => none
  | .compare =>
      match s.phase with
      | .fingerprinted last current =>
          if current = last then some { s with phase := .waiting last }
          else some { s with phase := .dispatching current }
      | _ => none

/-- Any number of steps, each of which is allowed where it is taken, with the files at each
moment, the last one first. -/
inductive Run (may : List KeyFiles → Server D → Action → Prop) (s₀ : Server D) :
    List KeyFiles → Server D → Prop
  | nil : Run may s₀ [s₀.files] s₀
  | snoc {held : List KeyFiles} {s s' : Server D} {action : Action} (hrun : Run may s₀ held s)
      (hmay : may held s action) (hstep : s.step lib sha256 action = some s') :
      Run may s₀ (s'.files :: held) s'

end Steps

/-- The debouncer is waiting for an event, and there is none. -/
def quiet (s : Server D) : Bool :=
  match s.phase with
  | .waiting _ => s.events == 0
  | _ => false

end Server

end Watcher

/-! ## The served pair -/

section Served

variable {lib : Libraries} {D : Type} {sha256 : List Byte → D}

/-- The certificate text that a load has read so far. -/
def Phase.certPem : Phase D → Option String
  | .startingWith certPem => some certPem
  | .loading _ certPem => some certPem
  | _ => none

/-- The bytes of a file at one of some moments were a text. -/
def HeldText (lib : Libraries) (held : List KeyFiles) (file : WatchedFile) (text : String) : Prop :=
  ∃ files ∈ held, readToString lib (files file) = .ok text

/-- What the files have held they have held. -/
theorem HeldText.cons {held : List KeyFiles} {file : WatchedFile} {text : String}
    (h : HeldText lib held file text) (files : KeyFiles) :
    HeldText lib (files :: held) file text := by
  obtain ⟨earlier, hmem, hread⟩ := h
  exact ⟨earlier, List.mem_cons_of_mem _ hmem, hread⟩

/-- A key that loads was read from its file and belongs to the certificate. -/
theorem loadSigningKey_eq_ok {certPem : String} {signingKey : FileContent}
    {material : SigningMaterial} (h : loadSigningKey lib certPem signingKey = .ok material) :
    ∃ signingKeyPem, readToString lib signingKey = .ok signingKeyPem ∧
      validatedMaterial lib certPem signingKeyPem = .ok material :=
  CheckedEval.bind_eq_ok h

/-- Loaded material comes from the texts of both files. -/
theorem loadAndValidate_eq_ok {files : KeyFiles} {material : SigningMaterial}
    (h : loadAndValidateSigningMaterial lib files = .ok material) :
    ∃ certPem, readToString lib (files .certificate) = .ok certPem ∧
      loadSigningKey lib certPem (files .signingKey) = .ok material :=
  CheckedEval.bind_eq_ok h

/-- The two ways to read the blocks of a chain agree where both succeed. -/
theorem parseCertChainParts_of_blocks {blocks : List (Except String Pem)} {parts : List String}
    (h : blocks.mapM (fun block =>
      match block with
      | .ok pem => Except.ok (base64Standard pem.contents)
      | .error e => .error e) = .ok parts) :
    blocks.mapM (fun block =>
      match block with
      | .ok pem => Except.ok (base64Standard pem.contents)
      | .error e => .error (CertError.parsing e)) = .ok parts := by
  induction blocks generalizing parts with
  | nil =>
      cases h
      rfl
  | cons block blocks ih =>
      rw [List.mapM_cons] at h ⊢
      obtain ⟨first, hfirst, hrest⟩ := CheckedEval.bind_eq_ok h
      obtain ⟨rest, hmap, hdone⟩ := CheckedEval.bind_eq_ok hrest
      cases hdone
      cases block with
      | error e => cases hfirst
      | ok pem =>
          cases hfirst
          rw [ih hmap]
          rfl

/-- A chain in base64 is the parsed chain. -/
theorem parseCertChainParts_of_chain {certPem : String} {parts : List String}
    (h : pemChainToBase64Der lib certPem = .ok parts) :
    parseCertChainParts lib certPem = .ok parts := by
  obtain ⟨certs, hcerts, hdone⟩ := CheckedEval.bind_eq_ok h
  split at hdone
  · cases hdone
  · cases hdone
    exact parseCertChainParts_of_blocks hcerts

/-- Validated material is a matching pair. -/
theorem validatedMaterial_matches (hpem : lib.PemIteration) {certPem signingKeyPem : String}
    {material : SigningMaterial} (h : validatedMaterial lib certPem signingKeyPem = .ok material) :
    ∃ chain, material.certificateChain = some chain ∧
      MatchingPair lib chain material.signingKeyPem := by
  obtain ⟨_, hvalid, hrest⟩ := CheckedEval.bind_eq_ok h
  obtain ⟨chain, hchain, hdone⟩ := CheckedEval.bind_eq_ok hrest
  cases hdone
  obtain ⟨pk, hleaf, hkey⟩ := leafKey_of_validate hvalid
  exact ⟨chain, rfl, matchingPair_of_leafKey hpem (parseCertChainParts_of_chain hchain) hleaf hkey⟩

namespace Server

/-- What is active was loaded from texts that the two files have held, and the server does
not go on without it. -/
structure Authentic (lib : Libraries) (held : List KeyFiles) (s : Server D) : Prop where
  files : s.files ∈ held
  loaded : s.phase.loaded = true → s.active.isSome = true
  certPem : ∀ certPem, s.phase.certPem = some certPem → HeldText lib held .certificate certPem
  active : ∀ material, s.active = some material →
    ∃ certPem signingKeyPem, HeldText lib held .certificate certPem ∧
      HeldText lib held .signingKey signingKeyPem ∧
      validatedMaterial lib certPem signingKeyPem = .ok material

/-- What may happen to the active material and to a load under way: it is as before, or is
what loads with the certificate that was read. -/
structure Loads (lib : Libraries) (s s' : Server D) : Prop where
  active : s'.active = s.active ∨ ∃ certPem material, s.phase.certPem = some certPem ∧
    loadSigningKey lib certPem (s.files .signingKey) = .ok material ∧ s'.active = some material
  certPem : ∀ certPem, s'.phase.certPem = some certPem →
    s.phase.certPem = some certPem ∨ readToString lib (s.files .certificate) = .ok certPem
  loaded : s'.phase.loaded = true → s.phase.loaded = true ∨ s'.active.isSome = true

/-- A step after which no load is under way, and which has not loaded anything. -/
theorem Loads.quiet {s s' : Server D} (hactive : s'.active = s.active)
    (hpem : s'.phase.certPem = none) (hloaded : s'.phase.loaded = true → s.phase.loaded = true) :
    Loads lib s s' where
  active := .inl hactive
  certPem := fun _ hcert => by cases hpem.symm.trans hcert
  loaded := fun h => .inl (hloaded h)

/-- A step that has loaded the key for the certificate that was read. -/
theorem Loads.load {s s' : Server D} {certPem : String} {material : SigningMaterial}
    (hcert : s.phase.certPem = some certPem)
    (hload : loadSigningKey lib certPem (s.files .signingKey) = .ok material)
    (hactive : s'.active = some material) (hpem : s'.phase.certPem = none) : Loads lib s s' where
  active := .inr ⟨certPem, material, hcert, hload, hactive⟩
  certPem := fun _ hcert' => by cases hpem.symm.trans hcert'
  loaded := fun _ => .inr (hactive ▸ rfl)

variable [DecidableEq D]

/-- **What every step does to the active material.** -/
theorem step_loads {s s' : Server D} {action : Action}
    (h : s.step lib sha256 action = some s') : Loads lib s s' := by
  obtain ⟨files, events, active, phase⟩ := s
  cases action with
  | write files' =>
      cases h
      exact ⟨.inl rfl, fun _ hpem => .inl hpem, .inl⟩
  | spuriousEvent =>
      simp only [step] at h
      split at h
      · cases h
        exact ⟨.inl rfl, fun _ hpem => .inl hpem, .inl⟩
      · cases h
  | readCertificate =>
      cases phase with
      | starting =>
          simp only [step] at h
          split at h
          · rename_i certPem hread
            cases h
            exact ⟨.inl rfl, fun _ hpem => .inr (Option.some.inj hpem ▸ hread),
              fun hloaded => by cases hloaded⟩
          · cases h
            exact .quiet rfl rfl id
      | dispatching last =>
          simp only [step] at h
          split at h
          · rename_i certPem hread
            cases h
            exact ⟨.inl rfl, fun _ hpem => .inr (Option.some.inj hpem ▸ hread),
              fun _ => .inl rfl⟩
          · cases h
            exact .quiet rfl rfl id
      | _ => cases h
  | readSigningKey =>
      cases phase with
      | startingWith certPem =>
          simp only [step] at h
          split at h
          · rename_i material hload
            cases h
            exact .load rfl hload rfl rfl
          · cases h
            exact .quiet rfl rfl id
      | loading last certPem =>
          simp only [step] at h
          split at h
          · rename_i material hload
            cases h
            exact .load rfl hload rfl rfl
          · cases h
            exact .quiet rfl rfl id
      | _ => cases h
  | install =>
      cases phase with
      | unwatched =>
          cases h
          exact .quiet rfl rfl id
      | _ => cases h
  | fingerprintCertificate =>
      cases phase with
      | unstarted =>
          cases h
          exact .quiet rfl rfl id
      | settled last =>
          cases h
          exact .quiet rfl rfl id
      | _ => cases h
  | fingerprintSigningKey =>
      cases phase with
      | baselining certificate =>
          cases h
          exact .quiet rfl rfl id
      | fingerprinting last certificate =>
          cases h
          exact .quiet rfl rfl id
      | _ => cases h
  | receive =>
      cases phase with
      | waiting last =>
          cases events with
          | zero => cases h
          | succ events =>
              cases h
              exact .quiet rfl rfl id
      | _ => cases h
  | drain =>
      cases phase with
      | draining last =>
          cases events with
          | zero => cases h
          | succ events =>
              cases h
              exact .quiet rfl rfl id
      | _ => cases h
  | settle =>
      cases phase with
      | draining last =>
          cases events with
          | zero =>
              cases h
              exact .quiet rfl rfl id
          | succ events => cases h
      | _ => cases h
  | compare =>
      cases phase with
      | fingerprinted last current =>
          simp only [step] at h
          split at h
          · cases h
            exact .quiet rfl rfl id
          · cases h
            exact .quiet rfl rfl id
      | _ => cases h

/-- One step keeps that the material comes from the files. -/
theorem Authentic.step {held : List KeyFiles} {s s' : Server D} {action : Action}
    (h : s.Authentic lib held) (hstep : s.step lib sha256 action = some s') :
    s'.Authentic lib (s'.files :: held) := by
  obtain ⟨hactive, hpem, hloaded⟩ := step_loads hstep
  refine ⟨List.mem_cons_self, ?_, ?_, ?_⟩
  · intro hphase
    rcases hloaded hphase with hbefore | hnow
    · rcases hactive with hsame | ⟨_, material, _, _, hnew⟩
      · rw [hsame]
        exact h.loaded hbefore
      · rw [hnew]
        rfl
    · exact hnow
  · intro certPem hcert
    rcases hpem certPem hcert with hbefore | hread
    · exact (h.certPem certPem hbefore).cons _
    · exact HeldText.cons ⟨s.files, h.files, hread⟩ _
  · intro material hmaterial
    rcases hactive with hsame | ⟨certPem, loaded, hcert, hload, hloaded⟩
    · obtain ⟨certPem, signingKeyPem, hcert, hkey, hvalid⟩ := h.active material (hsame ▸ hmaterial)
      exact ⟨certPem, signingKeyPem, hcert.cons _, hkey.cons _, hvalid⟩
    · obtain rfl : loaded = material := Option.some.inj (hloaded.symm.trans hmaterial)
      obtain ⟨signingKeyPem, hkey, hvalid⟩ := loadSigningKey_eq_ok hload
      exact ⟨certPem, signingKeyPem, (h.certPem certPem hcert).cons _,
        HeldText.cons ⟨s.files, h.files, hkey⟩ _, hvalid⟩

/-- The material of every server comes from what its files have held. -/
theorem Run.authentic {may : List KeyFiles → Server D → Action → Prop} {files : KeyFiles}
    {held : List KeyFiles} {s : Server D} (h : Run lib sha256 may (booting files) held s) :
    s.Authentic lib held := by
  induction h with
  | nil =>
      refine ⟨List.mem_cons_self, ?_, ?_, ?_⟩
      · intro hloaded
        cases hloaded
      · intro certPem hpem
        cases hpem
      · intro material hactive
        cases hactive
  | snoc _ _ hstep ih => exact ih.step hstep

/-- **The served certificate and key are never of two rotations.**  In every interleaving of
writes with the steps of the server, what is active is a matching pair; and if every readable
certificate and every readable key that the files have held is of some version, and no two
versions share a public key, it is what a load of one version gives.  A step changes it only
at the end of a load that has succeeded, so a failed load leaves it alone. -/
theorem certificates_never_mixed (hpem : lib.PemIteration) {files : KeyFiles}
    {held : List KeyFiles} {s : Server D}
    (hrun : Run lib sha256 (fun _ _ _ => True) (booting files) held s) :
    (∀ material, s.active = some material →
      (∃ chain, material.certificateChain = some chain ∧
        MatchingPair lib chain material.signingKeyPem) ∧
      ∀ {V : Type} (version : V → KeyFiles),
        (∀ now ∈ held, ∀ text pk, readToString lib (now .certificate) = .ok text →
          leafKey lib text = some pk → ∃ v, now .certificate = version v .certificate) →
        (∀ now ∈ held, ∀ text pk, readToString lib (now .signingKey) = .ok text →
          publicKeyOf lib text = some pk → ∃ v, now .signingKey = version v .signingKey) →
        (∀ v w certPem signingKeyPem, readToString lib (version v .certificate) = .ok certPem →
          readToString lib (version w .signingKey) = .ok signingKeyPem →
          leafKey lib certPem = publicKeyOf lib signingKeyPem → v = w) →
        ∃ v, loadAndValidateSigningMaterial lib (version v) = .ok material) ∧
    ∀ action s', s.step lib sha256 action = some s' → s'.active = s.active ∨
      ∃ certPem loaded, s.phase.certPem = some certPem ∧
        loadSigningKey lib certPem (s.files .signingKey) = .ok loaded ∧
        s'.active = some loaded := by
  refine ⟨?_, fun action s' hstep => (step_loads hstep).active⟩
  intro material hactive
  obtain ⟨certPem, signingKeyPem, ⟨then₁, hthen₁, hcert⟩, ⟨then₂, hthen₂, hkey⟩, hvalid⟩ :=
    hrun.authentic.active material hactive
  refine ⟨validatedMaterial_matches hpem hvalid, ?_⟩
  intro V version hcerts hkeys hown
  obtain ⟨_, hvalidate, _⟩ := CheckedEval.bind_eq_ok hvalid
  obtain ⟨pk, hleaf, hpublic⟩ := leafKey_of_validate hvalidate
  obtain ⟨v, hv⟩ := hcerts then₁ hthen₁ certPem pk hcert hleaf
  obtain ⟨w, hw⟩ := hkeys then₂ hthen₂ signingKeyPem pk hkey hpublic
  rw [hv] at hcert
  rw [hw] at hkey
  obtain rfl : v = w := hown v w certPem signingKeyPem hcert hkey (hleaf.trans hpublic.symm)
  refine ⟨v, ?_⟩
  simp only [loadAndValidateSigningMaterial, loadSigningKey, hcert, hkey]
  exact hvalid

end Server

end Served

/-! ## The effect of a rotation -/

section Effect

variable {lib : Libraries} {D : Type} {sha256 : List Byte → D}

/-- A fingerprint is of some content that a file has held. -/
def Noted (sha256 : List Byte → D) (held : List KeyFiles) (file : WatchedFile)
    (digest : Option D) : Prop :=
  ∃ files ∈ held, digest = fingerprint sha256 (files file)

/-- Both digests are of contents that the files have held. -/
def NotedBoth (sha256 : List Byte → D) (held : List KeyFiles) (last : Fingerprints D) : Prop :=
  Noted sha256 held .certificate last.1 ∧ Noted sha256 held .signingKey last.2

/-- A file keeps its content, or becomes unreadable, or has a content it has not had. -/
def Renews (held : List KeyFiles) (files files' : KeyFiles) : Prop :=
  ∀ file bytes, files' file = .ok bytes →
    files' file = files file ∨ ∀ earlier ∈ held, earlier file ≠ .ok bytes

/-- A noted digest stays one. -/
theorem Noted.cons {held : List KeyFiles} {file : WatchedFile} {digest : Option D}
    (h : Noted sha256 held file digest) (files : KeyFiles) :
    Noted sha256 (files :: held) file digest := by
  obtain ⟨earlier, hmem, hdigest⟩ := h
  exact ⟨earlier, List.mem_cons_of_mem _ hmem, hdigest⟩

/-- Noted digests stay so. -/
theorem NotedBoth.cons {held : List KeyFiles} {last : Fingerprints D}
    (h : NotedBoth sha256 held last) (files : KeyFiles) :
    NotedBoth sha256 (files :: held) last :=
  ⟨h.1.cons files, h.2.cons files⟩

/-- No two contents that a file has held have one digest. -/
def Distinguishes (sha256 : List Byte → D) (held : List KeyFiles) : Prop :=
  ∀ files ∈ held, ∀ files' ∈ held, ∀ file bytes bytes', files file = .ok bytes →
    files' file = .ok bytes' → sha256 bytes = sha256 bytes' → bytes = bytes'

/-- Fewer contents are distinguished all the more. -/
theorem Distinguishes.of_cons {held : List KeyFiles} {files : KeyFiles}
    (h : Distinguishes sha256 (files :: held)) : Distinguishes sha256 held :=
  fun earlier hearlier later hlater =>
    h earlier (List.mem_cons_of_mem _ hearlier) later (List.mem_cons_of_mem _ hlater)

/-- Two contents of a file with one fingerprint are the same, if one of them is readable. -/
theorem Distinguishes.eq_of_fingerprint {held : List KeyFiles} (h : Distinguishes sha256 held)
    {files files' : KeyFiles} (hfiles : files ∈ held) (hfiles' : files' ∈ held)
    {file : WatchedFile} {bytes : List Byte} (hread : files' file = .ok bytes)
    (hsame : fingerprint sha256 (files file) = fingerprint sha256 (.ok bytes)) :
    files file = .ok bytes := by
  cases hcontent : files file with
  | error e =>
      rw [hcontent] at hsame
      cases hsame
  | ok other =>
      rw [hcontent] at hsame
      rw [h files hfiles files' hfiles' file other bytes hcontent hread (Option.some.inj hsame)]

/-- A readable file whose fingerprint was noted before a write is as it was. -/
theorem Renews.unchanged {held : List KeyFiles} {files files' : KeyFiles}
    (hdistinct : Distinguishes sha256 (files' :: held)) (h : Renews held files files')
    {file : WatchedFile}
    {digest : Option D} (hnoted : Noted sha256 held file digest)
    (hsame : fingerprint sha256 (files' file) = digest) {bytes : List Byte}
    (hread : files' file = .ok bytes) : files' file = files file := by
  rcases h file bytes hread with hkept | hnew
  · exact hkept
  · obtain ⟨earlier, hmem, hdigest⟩ := hnoted
    rw [hdigest, hread] at hsame
    exact absurd (hdistinct.eq_of_fingerprint (List.mem_cons_of_mem _ hmem) List.mem_cons_self
      hread hsame.symm) (hnew earlier hmem)

/-- A text that is read has its bytes in the file. -/
theorem readToString_eq_ok {content : FileContent} {text : String}
    (h : readToString lib content = .ok text) : ∃ bytes, content = .ok bytes := by
  cases content with
  | error e => cases h
  | ok bytes => exact ⟨bytes, rfl⟩

/-- Both files of a pair that can be loaded are readable. -/
theorem readable_of_load {files : KeyFiles} {material : SigningMaterial}
    (h : loadAndValidateSigningMaterial lib files = .ok material) (file : WatchedFile) :
    ∃ bytes, files file = .ok bytes := by
  obtain ⟨certPem, hcert, hload⟩ := loadAndValidate_eq_ok h
  obtain ⟨signingKeyPem, hkey, _⟩ := loadSigningKey_eq_ok hload
  cases file with
  | certificate => exact readToString_eq_ok hcert
  | signingKey => exact readToString_eq_ok hkey

namespace Server

/-- A valid pair in the files is the active one. -/
def UpToDate (lib : Libraries) (s : Server D) : Prop :=
  ∀ material, loadAndValidateSigningMaterial lib s.files = .ok material → s.active = some material

/-- No file is written before the debouncer has its baseline, and a write brings contents
that the files have not had. -/
def Renewing (held : List KeyFiles) (s : Server D) : Action → Prop
  | .write files => s.phase.tracking = true ∧ Renews held s.files files
  | _ => True

/-- If the files are as the fingerprints say, a valid pair in them is the active one. -/
def Settled (lib : Libraries) (sha256 : List Byte → D) (held : List KeyFiles) (s : Server D)
    (last : Fingerprints D) : Prop :=
  NotedBoth sha256 held last ∧ (fingerprintAll sha256 s.files = last → s.UpToDate lib)

/-- The files are as some fingerprints say, or an event is on its way. -/
def Announced (sha256 : List Byte → D) (s : Server D) (last : Fingerprints D) : Prop :=
  fingerprintAll sha256 s.files = last ∨ 0 < s.events

/-- What the debouncer knows of the files and of the active material. -/
def Tracked (lib : Libraries) (sha256 : List Byte → D) (held : List KeyFiles) (s : Server D) :
    Prop :=
  match s.phase with
  | .starting => True
  | .startingWith certPem => readToString lib (s.files .certificate) = .ok certPem
  | .refused _ => True
  | .unwatched => s.UpToDate lib
  | .unstarted => s.UpToDate lib
  | .baselining certificate =>
      s.UpToDate lib ∧ certificate = fingerprint sha256 (s.files .certificate)
  | .waiting last => s.Settled lib sha256 held last ∧ s.Announced sha256 last
  | .draining last => s.Settled lib sha256 held last
  | .settled last => s.Settled lib sha256 held last
  | .fingerprinting last certificate =>
      s.Settled lib sha256 held last ∧ Noted sha256 held .certificate certificate ∧
        (certificate = fingerprint sha256 (s.files .certificate) ∨ 0 < s.events)
  | .fingerprinted last current =>
      s.Settled lib sha256 held last ∧ NotedBoth sha256 held current ∧ s.Announced sha256 current
  | .dispatching last => NotedBoth sha256 held last ∧ s.Announced sha256 last
  | .loading last certPem =>
      NotedBoth sha256 held last ∧ s.Announced sha256 last ∧
        ∀ bytes, s.files .certificate = .ok bytes →
          fingerprint sha256 (s.files .certificate) = last.1 →
          readToString lib (s.files .certificate) = .ok certPem

variable {held : List KeyFiles} {files files' : KeyFiles} {events : Nat}
  {active : Option SigningMaterial} {phase : Phase D} {last : Fingerprints D}

/-- A write that renews leaves a settled state settled. -/
theorem Settled.write (hdistinct : Distinguishes sha256 (files' :: held))
    (h : Settled lib sha256 held ⟨files, events, active, phase⟩ last)
    (hrenews : Renews held files files') (events' : Nat) :
    Settled lib sha256 (files' :: held) ⟨files', events', active, phase⟩ last := by
  refine ⟨h.1.cons _, ?_⟩
  intro hsame material hload
  have hcert : files' .certificate = files .certificate := by
    obtain ⟨bytes, hread⟩ := readable_of_load hload .certificate
    exact hrenews.unchanged hdistinct h.1.1 (congrArg Prod.fst hsame) hread
  have hkey : files' .signingKey = files .signingKey := by
    obtain ⟨bytes, hread⟩ := readable_of_load hload .signingKey
    exact hrenews.unchanged hdistinct h.1.2 (congrArg Prod.snd hsame) hread
  obtain rfl : files' = files := by
    funext file
    cases file with
    | certificate => exact hcert
    | signingKey => exact hkey
  exact h.2 hsame material hload

/-- A write that renews keeps the invariant. -/
theorem Tracked.write (hdistinct : Distinguishes sha256 (files' :: held))
    (h : Tracked lib sha256 held ⟨files, events, active, phase⟩)
    (hphase : phase.tracking = true) (hrenews : Renews held files files') :
    Tracked lib sha256 (files' :: held) ⟨files', events + 1, active, phase⟩ := by
  cases phase with
  | waiting last => exact ⟨h.1.write hdistinct hrenews _, .inr (Nat.succ_pos _)⟩
  | draining last => exact Settled.write hdistinct h hrenews _
  | settled last => exact Settled.write hdistinct h hrenews _
  | fingerprinting last certificate =>
      exact ⟨h.1.write hdistinct hrenews _, h.2.1.cons _, .inr (Nat.succ_pos _)⟩
  | fingerprinted last current =>
      exact ⟨h.1.write hdistinct hrenews _, h.2.1.cons _, .inr (Nat.succ_pos _)⟩
  | dispatching last => exact ⟨h.1.cons _, .inr (Nat.succ_pos _)⟩
  | loading last certPem =>
      obtain ⟨hnoted, _, hcert⟩ := h
      refine ⟨hnoted.cons _, .inr (Nat.succ_pos _), ?_⟩
      intro bytes hread hsame
      have hkept : files' .certificate = files .certificate :=
        hrenews.unchanged hdistinct hnoted.1 hsame hread
      dsimp only at hread hsame ⊢
      rw [hkept] at hread hsame ⊢
      exact hcert bytes hread hsame
  | _ => cases hphase

/-- What is settled stays so while the material and the digests are kept. -/
theorem Settled.cons (h : Settled lib sha256 held ⟨files, events, active, phase⟩ last)
    (files' : KeyFiles) (events' : Nat) (phase' : Phase D) :
    Settled lib sha256 (files' :: held) ⟨files, events', active, phase'⟩ last :=
  ⟨h.1.cons files', h.2⟩

/-- Another event disturbs nothing. -/
theorem Tracked.event (h : Tracked lib sha256 held ⟨files, events, active, phase⟩) :
    Tracked lib sha256 (files :: held) ⟨files, events + 1, active, phase⟩ := by
  cases phase with
  | starting => trivial
  | startingWith certPem => exact h
  | refused reason => trivial
  | unwatched => exact h
  | unstarted => exact h
  | baselining certificate => exact h
  | waiting last => exact ⟨h.1.cons _ _ _, .inr (Nat.succ_pos _)⟩
  | draining last => exact Settled.cons h _ _ _
  | settled last => exact Settled.cons h _ _ _
  | fingerprinting last certificate =>
      exact ⟨h.1.cons _ _ _, h.2.1.cons _, .inr (Nat.succ_pos _)⟩
  | fingerprinted last current =>
      exact ⟨h.1.cons _ _ _, h.2.1.cons _, .inr (Nat.succ_pos _)⟩
  | dispatching last => exact ⟨h.1.cons _, .inr (Nat.succ_pos _)⟩
  | loading last certPem => exact ⟨h.1.cons _, .inr (Nat.succ_pos _), h.2.2⟩

/-- Whatever the key file holds, a load that began with the certificate of the files ends
with the files up to date. -/
theorem upToDate_of_load {certPem : String} {active' : Option SigningMaterial}
    (hcert : ∀ bytes, files .certificate = .ok bytes →
      readToString lib (files .certificate) = .ok certPem)
    (hload : ∀ material, loadSigningKey lib certPem (files .signingKey) = .ok material →
      active' = some material) :
    UpToDate lib (⟨files, events, active', phase⟩ : Server D) := by
  intro material hvalid
  obtain ⟨certPem', hcert', hkey⟩ := loadAndValidate_eq_ok hvalid
  obtain ⟨bytes, hread⟩ := readToString_eq_ok hcert'
  obtain rfl : certPem = certPem' := Except.ok.inj ((hcert bytes hread).symm.trans hcert')
  exact hload material hkey

variable [DecidableEq D]

/-- **One step keeps the invariant.** -/
theorem Tracked.step {s s' : Server D} {action : Action}
    (hdistinct : Distinguishes sha256 (s'.files :: held)) (h : s.Tracked lib sha256 held)
    (hfiles : s.files ∈ held) (hmay : s.Renewing held action)
    (hstep : s.step lib sha256 action = some s') : s'.Tracked lib sha256 (s'.files :: held) := by
  obtain ⟨files, events, active, phase⟩ := s
  cases action with
  | write files' =>
      obtain ⟨hphase, hrenews⟩ := hmay
      simp only [Server.step, watched_of_tracking hphase, if_true] at hstep
      cases hstep
      exact h.write hdistinct hphase hrenews
  | spuriousEvent =>
      simp only [Server.step] at hstep
      split at hstep
      · cases hstep
        exact h.event
      · cases hstep
  | readCertificate =>
      cases phase with
      | starting =>
          simp only [Server.step] at hstep
          split at hstep
          · rename_i certPem hread
            cases hstep
            exact hread
          · cases hstep
            trivial
      | dispatching last =>
          obtain ⟨hnoted, hannounced⟩ := h
          simp only [Server.step] at hstep
          split at hstep
          · rename_i certPem hread
            cases hstep
            exact ⟨hnoted.cons _, hannounced, fun _ _ _ => hread⟩
          · rename_i e hread
            cases hstep
            refine ⟨⟨hnoted.cons _, ?_⟩, hannounced⟩
            intro _ material hload
            obtain ⟨certPem, hcert, _⟩ := loadAndValidate_eq_ok hload
            cases hread.symm.trans hcert
      | _ => cases hstep
  | readSigningKey =>
      cases phase with
      | startingWith certPem =>
          simp only [Server.step] at hstep
          split at hstep
          · rename_i material hload
            cases hstep
            exact upToDate_of_load (fun _ _ => h)
              (fun other hother => congrArg some (Except.ok.inj (hload.symm.trans hother)))
          · cases hstep
            trivial
      | loading last certPem =>
          obtain ⟨hnoted, hannounced, hcert⟩ := h
          simp only [Server.step] at hstep
          split at hstep
          · rename_i material hload
            cases hstep
            refine ⟨⟨hnoted.cons _, ?_⟩, hannounced⟩
            intro hsame
            exact upToDate_of_load (fun bytes hread => hcert bytes hread (congrArg Prod.fst hsame))
              (fun other hother => congrArg some (Except.ok.inj (hload.symm.trans hother)))
          · rename_i e hload
            cases hstep
            refine ⟨⟨hnoted.cons _, ?_⟩, hannounced⟩
            intro hsame
            exact upToDate_of_load (fun bytes hread => hcert bytes hread (congrArg Prod.fst hsame))
              (fun other hother => by cases hload.symm.trans hother)
      | _ => cases hstep
  | install =>
      cases phase with
      | unwatched =>
          cases hstep
          exact h
      | _ => cases hstep
  | fingerprintCertificate =>
      cases phase with
      | unstarted =>
          cases hstep
          exact ⟨h, rfl⟩
      | settled last =>
          cases hstep
          exact ⟨Settled.cons h _ _ _, Noted.cons ⟨files, hfiles, rfl⟩ _, .inl rfl⟩
      | _ => cases hstep
  | fingerprintSigningKey =>
      cases phase with
      | baselining certificate =>
          cases hstep
          obtain ⟨huptodate, hbaseline⟩ := h
          dsimp only at hbaseline
          subst hbaseline
          refine ⟨⟨⟨Noted.cons ⟨files, hfiles, rfl⟩ _, Noted.cons ⟨files, hfiles, rfl⟩ _⟩, ?_⟩,
            .inl rfl⟩
          exact fun _ => huptodate
      | fingerprinting last certificate =>
          cases hstep
          obtain ⟨hsettled, hnoted, hfirst⟩ := h
          refine ⟨hsettled.cons _ _ _, ⟨hnoted.cons _, Noted.cons ⟨files, hfiles, rfl⟩ _⟩, ?_⟩
          rcases hfirst with hsame | hevents
          · exact .inl (congrArg (·, _) hsame.symm)
          · exact .inr hevents
      | _ => cases hstep
  | receive =>
      cases phase with
      | waiting last =>
          cases events with
          | zero => cases hstep
          | succ events =>
              cases hstep
              exact h.1.cons _ _ _
      | _ => cases hstep
  | drain =>
      cases phase with
      | draining last =>
          cases events with
          | zero => cases hstep
          | succ events =>
              cases hstep
              exact Settled.cons h _ _ _
      | _ => cases hstep
  | settle =>
      cases phase with
      | draining last =>
          cases events with
          | zero =>
              cases hstep
              exact Settled.cons h _ _ _
          | succ events => cases hstep
      | _ => cases hstep
  | compare =>
      cases phase with
      | fingerprinted last current =>
          obtain ⟨hsettled, hnoted, hannounced⟩ := h
          simp only [Server.step] at hstep
          split at hstep
          · rename_i hsame
            subst hsame
            cases hstep
            exact ⟨hsettled.cons _ _ _, hannounced⟩
          · cases hstep
            exact ⟨hnoted.cons _, hannounced⟩
      | _ => cases hstep

/-- In every run the server is settled, or has yet to look. -/
theorem Run.tracked {files : KeyFiles} {s : Server D}
    (h : Run lib sha256 Renewing (booting files) held s) (hdistinct : Distinguishes sha256 held) :
    s.Tracked lib sha256 held := by
  induction h with
  | nil => trivial
  | snoc hrun hmay hstep ih =>
      exact (ih hdistinct.of_cons).step hdistinct hrun.authentic.files hmay hstep

/-- **A rotation of the certificate takes effect.**  In every interleaving of writes with the
steps of the server, if no file is written before the debouncer has its baseline, every write
leaves a file as it is, makes it unreadable or gives it a content that it has not had, and no
two contents that a file has had share a digest: whenever the debouncer waits on an empty
queue there is material to serve, and it is that of the files, if they are a valid pair. -/
theorem certificate_rotation_takes_effect {files : KeyFiles} {s : Server D}
    (hrun : Run lib sha256 Renewing (booting files) held s)
    (hdistinct : Distinguishes sha256 held) (hquiet : s.quiet = true) :
    s.active.isSome = true ∧ ∀ material,
      loadAndValidateSigningMaterial lib s.files = .ok material → s.active = some material := by
  have htracked := hrun.tracked hdistinct
  have hloaded := hrun.authentic.loaded
  obtain ⟨files', events, active, phase⟩ := s
  cases phase with
  | waiting last =>
      refine ⟨hloaded rfl, ?_⟩
      obtain ⟨hsettled, hsame | hevents⟩ := htracked
      · exact hsettled.2 hsame
      · have hempty : events = 0 := by simpa [quiet] using hquiet
        exact absurd hempty (Nat.ne_of_gt hevents)
  | _ => cases hquiet

end Server

end Effect

/-! ## A rotation of two sample keys -/

section Samples

variable {may : List KeyFiles → Server (List Byte) → Action → Prop} {s₀ : Server (List Byte)}
  {held : List KeyFiles} {files : KeyFiles} {active : Option SigningMaterial}
  {last : Fingerprints (List Byte)} {k₀ : SampleKey}

/-- The digest of the certificate and of the key of a sample key. -/
def certificateDigest (k : SampleKey) : Nat :=
  if k = firstKey then 0xf30919b0c1e91df5bd9415db603cb46957dac589f912adcf193405af696da589
  else 0xb353a2bacdfb214e5262b0af97f1b9d18a92572884ccf139c5d8bfbcd17a2583

/-- The SHA-256 digest of the PEM text of a sample key. -/
def keyDigest (k : SampleKey) : Nat :=
  if k = firstKey then 0x8551fc65a57825c5aec43eac458e77b59909c5420785e979a38f500344c4257d
  else 0xa8363eb79d42c583925be955a10c9df29447fb3b49757f380e596121cae9f62d

/-- What SHA-256 makes of the texts of the sample keys. -/
def fileSha256 (bytes : List Byte) : List Byte :=
  match SampleKey.find (fun k => utf8 k.certificatePem) bytes,
    SampleKey.find (fun k => utf8 k.keyPem) bytes with
  | some k, _ => beBytes 32 (certificateDigest k)
  | none, some k => beBytes 32 (keyDigest k)
  | none, none => []

/-- Different texts have different bytes. -/
theorem utf8_injective {a b : String} (h : utf8 a = utf8 b) : a = b := by
  have hread := fromUtf8_utf8 sampleLibraries a
  rw [h, fromUtf8_utf8] at hread
  exact (Except.ok.inj hread).symm

/-- The public keys differ. -/
theorem SampleKey.publicKey_ne : secondKey.publicKey ≠ firstKey.publicKey := by
  decide +kernel

/-- The text of a file is read as it is. -/
theorem readToString_utf8 (lib : Libraries) (text : String) :
    readToString lib (.ok (utf8 text)) = .ok text := by
  simp only [readToString, fromUtf8_utf8]

/-- The certificate of one key beside another key. -/
def pairFiles (certificate signingKey : SampleKey) : KeyFiles
  | .certificate => .ok (utf8 certificate.certificatePem)
  | .signingKey => .ok (utf8 signingKey.keyPem)

/-- A key is no certificate. -/
theorem keyPem_ne_certificatePem (k k' : SampleKey) : k.keyPem ≠ k'.certificatePem := by
  intro h
  unfold SampleKey.keyPem SampleKey.certificatePem at h
  -- the labels of the two blocks differ
  have hstart := congrArg (List.take 12) (String.ofList_injective h)
  have hlabels : "-----BEGIN P".toList = "-----BEGIN C".toList := hstart
  exact absurd hlabels (by decide)

/-- The digest of a certificate file. -/
theorem fileSha256_certificate {k : SampleKey} (hk : k.Known) :
    fileSha256 (utf8 k.certificatePem) = beBytes 32 (certificateDigest k) := by
  have hfind := hk.find_eq (f := fun k => utf8 k.certificatePem)
    fun h => SampleKey.certificatePem_ne (utf8_injective h)
  simp only [fileSha256, hfind]

/-- The digest of a key file. -/
theorem fileSha256_key {k : SampleKey} (hk : k.Known) :
    fileSha256 (utf8 k.keyPem) = beBytes 32 (keyDigest k) := by
  have hfind := hk.find_eq (f := fun k => utf8 k.keyPem)
    fun h => SampleKey.keyPem_ne (utf8_injective h)
  have hnone : SampleKey.find (fun k => utf8 k.certificatePem) (utf8 k.keyPem) = none := by
    have hne : ∀ k' : SampleKey, utf8 k.keyPem ≠ utf8 k'.certificatePem :=
      fun k' h => keyPem_ne_certificatePem k k' (utf8_injective h)
    simp only [SampleKey.find, hne, if_false]
  simp only [fileSha256, hnone, hfind]

/-- The digests of the two certificates differ, and those of the two keys. -/
theorem digests_ne :
    beBytes 32 (certificateDigest secondKey) ≠ beBytes 32 (certificateDigest firstKey) ∧
      beBytes 32 (keyDigest secondKey) ≠ beBytes 32 (keyDigest firstKey) := by
  decide +kernel

/-- The digests of the sample certificates differ. -/
theorem eq_of_fileSha256_certificate {k k' : SampleKey} (hk : k.Known) (hk' : k'.Known)
    (h : fileSha256 (utf8 k.certificatePem) = fileSha256 (utf8 k'.certificatePem)) : k = k' := by
  rw [fileSha256_certificate hk, fileSha256_certificate hk'] at h
  exact hk.eq_of_feature hk' (f := fun k => beBytes 32 (certificateDigest k)) digests_ne.1 h

/-- The digests of the sample keys differ. -/
theorem eq_of_fileSha256_key {k k' : SampleKey} (hk : k.Known) (hk' : k'.Known)
    (h : fileSha256 (utf8 k.keyPem) = fileSha256 (utf8 k'.keyPem)) : k = k' := by
  rw [fileSha256_key hk, fileSha256_key hk'] at h
  exact hk.eq_of_feature hk' (f := fun k => beBytes 32 (keyDigest k)) digests_ne.2 h

/-- The certificate file reads as its text. -/
theorem readToString_certificate (certificate signingKey : SampleKey) :
    readToString sampleLibraries (pairFiles certificate signingKey .certificate) =
      .ok certificate.certificatePem := readToString_utf8 _ _

/-- The key file reads as its text. -/
theorem readToString_signingKey (certificate signingKey : SampleKey) :
    readToString sampleLibraries (pairFiles certificate signingKey .signingKey) =
      .ok signingKey.keyPem := readToString_utf8 _ _

/-- The material of a sample key. -/
def sampleMaterial (k : SampleKey) : SigningMaterial :=
  ⟨some [base64Standard k.certificate], k.keyPem⟩

/-- A sample key loads with its own certificate. -/
theorem loadSigningKey_sample {k : SampleKey} (hk : k.Known) (certificate : SampleKey) :
    loadSigningKey sampleLibraries k.certificatePem (pairFiles certificate k .signingKey) =
      .ok (sampleMaterial k) := by
  have hblocks : sampleLibraries.pemBlocks k.certificatePem =
      [.ok ⟨"CERTIFICATE", k.certificate⟩] :=
    pemBlocks_of_find (hk.find_eq SampleKey.certificatePem_ne)
  have hchain : pemChainToBase64Der sampleLibraries k.certificatePem =
      .ok [base64Standard k.certificate] := by
    unfold pemChainToBase64Der
    rw [hblocks]
    rfl
  have hmaterial : validatedMaterial sampleLibraries k.certificatePem k.keyPem =
      .ok (sampleMaterial k) := by
    unfold validatedMaterial
    rw [hk.validate_eq, hchain]
    rfl
  unfold loadSigningKey
  rw [readToString_signingKey]
  exact hmaterial

/-- The files of one sample key load as its material. -/
theorem load_sample {k : SampleKey} (hk : k.Known) :
    loadAndValidateSigningMaterial sampleLibraries (pairFiles k k) = .ok (sampleMaterial k) := by
  unfold loadAndValidateSigningMaterial
  rw [readToString_certificate]
  exact loadSigningKey_sample hk k

namespace Server

/-- From a start with a key the server can come to a state while its files are all of a
kind. -/
def Reached (k : SampleKey) (P : KeyFiles → Prop) (s : Server (List Byte)) : Prop :=
  ∃ held, Run sampleLibraries fileSha256 Renewing (booting (pairFiles k k)) held s ∧
    ∀ files ∈ held, P files

/-- A step that leaves the files alone. -/
theorem Reached.act {P : KeyFiles → Prop} {s : Server (List Byte)} (h : Reached k₀ P s)
    (action : Action) (s' : Server (List Byte)) (hfiles : s'.files = s.files)
    (hwrite : ∀ files, action ≠ .write files)
    (hstep : s.step sampleLibraries fileSha256 action = some s') : Reached k₀ P s' := by
  obtain ⟨held, hrun, hheld⟩ := h
  have hmay : s.Renewing held action := by
    cases action with
    | write files => exact absurd rfl (hwrite files)
    | _ => trivial
  refine ⟨_, .snoc hrun hmay hstep, ?_⟩
  intro files hmem
  rcases List.mem_cons.mp hmem with rfl | hmem
  · rw [hfiles]
    exact hheld _ hrun.authentic.files
  · exact hheld files hmem

/-- A step that writes the files. -/
theorem Reached.write {P P' : KeyFiles → Prop} {files files' : KeyFiles} {events : Nat}
    {phase : Phase (List Byte)} (h : Reached k₀ P ⟨files, events, active, phase⟩)
    (hphase : phase.tracking = true)
    (hrenews : ∀ held, (∀ earlier ∈ held, P earlier) → Renews held files files')
    (hkind : ∀ earlier, P earlier → P' earlier) (hfiles' : P' files') :
    Reached k₀ P' ⟨files', events + 1, active, phase⟩ := by
  obtain ⟨held, hrun, hheld⟩ := h
  have hstep : Server.step sampleLibraries fileSha256 ⟨files, events, active, phase⟩
      (.write files') = some ⟨files', events + 1, active, phase⟩ := by
    simp only [Server.step, watched_of_tracking hphase, if_true]
  have hmay : Renewing held (⟨files, events, active, phase⟩ : Server (List Byte)) (.write files') :=
    ⟨hphase, hrenews held hheld⟩
  refine ⟨_, .snoc hrun hmay hstep, ?_⟩
  intro earlier hmem
  rcases List.mem_cons.mp hmem with rfl | hmem
  · exact hfiles'
  · exact hkind earlier (hheld earlier hmem)

/-- One event and files with other fingerprints: the debouncer comes to the callback. -/
theorem Reached.round {P : KeyFiles → Prop} (h : Reached k₀ P ⟨files, 1, active, .waiting last⟩)
    (hnew : fingerprintAll fileSha256 files ≠ last) :
    Reached k₀ P ⟨files, 0, active, .dispatching (fingerprintAll fileSha256 files)⟩ := by
  have hreceived := h.act .receive ⟨files, 0, active, .draining last⟩ rfl (by simp) rfl
  have hsettled := hreceived.act .settle ⟨files, 0, active, .settled last⟩ rfl (by simp) rfl
  have hfirst := hsettled.act .fingerprintCertificate
    ⟨files, 0, active, .fingerprinting last (fingerprint fileSha256 (files .certificate))⟩ rfl
    (by simp) rfl
  have hboth := hfirst.act .fingerprintSigningKey
    ⟨files, 0, active, .fingerprinted last (fingerprintAll fileSha256 files)⟩ rfl (by simp) rfl
  exact hboth.act .compare _ rfl (by simp) (if_neg hnew)

/-- The watcher reads the certificate file. -/
theorem Reached.readCertificate {P : KeyFiles → Prop} {certificate signingKey : SampleKey}
    {events : Nat}
    (h : Reached k₀ P ⟨pairFiles certificate signingKey, events, active, .dispatching last⟩) :
    Reached k₀ P ⟨pairFiles certificate signingKey, events, active,
      .loading last certificate.certificatePem⟩ :=
  h.act .readCertificate _ rfl (by simp) (by simp only [Server.step, readToString_certificate])

/-- The watcher reads the key file, and the material is replaced. -/
theorem Reached.readSigningKey {P : KeyFiles → Prop} {k certificate : SampleKey} (hk : k.Known)
    {events : Nat}
    (h : Reached k₀ P ⟨pairFiles certificate k, events, active, .loading last k.certificatePem⟩) :
    Reached k₀ P ⟨pairFiles certificate k, events, some (sampleMaterial k), .waiting last⟩ :=
  h.act .readSigningKey _ rfl (by simp) (by simp only [Server.step, loadSigningKey_sample hk])

/-- The key is refused. -/
theorem step_refused {certificate signingKey : SampleKey} {events : Nat} {e : String}
    (h : loadSigningKey sampleLibraries certificate.certificatePem
      (pairFiles certificate signingKey .signingKey) = .error e) :
    Server.step sampleLibraries fileSha256 ⟨pairFiles certificate signingKey, events, active,
        .loading last certificate.certificatePem⟩ .readSigningKey =
      some ⟨pairFiles certificate signingKey, events, active, .waiting last⟩ := by
  simp only [Server.step, h]

/-- The server starts with a key. -/
theorem reached_waiting {k : SampleKey} (hk : k.Known) : Reached k (· = pairFiles k k)
    ⟨pairFiles k k, 0, some (sampleMaterial k),
      .waiting (fingerprintAll fileSha256 (pairFiles k k))⟩ := by
  have hbooted : Reached k (· = pairFiles k k) ⟨pairFiles k k, 0, none, .starting⟩ := by
    refine ⟨_, .nil, ?_⟩
    intro files hmem
    exact List.mem_singleton.mp hmem
  have hcert := hbooted.act .readCertificate
    ⟨pairFiles k k, 0, none, .startingWith k.certificatePem⟩ rfl (by simp)
    (by simp only [Server.step, readToString_certificate])
  have hkey := hcert.act .readSigningKey
    ⟨pairFiles k k, 0, some (sampleMaterial k), .unwatched⟩ rfl (by simp)
    (by simp only [Server.step, loadSigningKey_sample hk])
  have hinstalled := hkey.act .install
    ⟨pairFiles k k, 0, some (sampleMaterial k), .unstarted⟩ rfl (by simp) rfl
  have hfirst := hinstalled.act .fingerprintCertificate
    ⟨pairFiles k k, 0, some (sampleMaterial k),
      .baselining (fingerprint fileSha256 (pairFiles k k .certificate))⟩ rfl (by simp) rfl
  exact hfirst.act .fingerprintSigningKey _ rfl (by simp) rfl

/-- The new certificate file differs from the old one. -/
theorem certificate_differs (signingKey signingKey' : SampleKey) :
    pairFiles secondKey signingKey .certificate ≠ pairFiles firstKey signingKey' .certificate := by
  intro h
  exact SampleKey.certificatePem_ne (utf8_injective (Except.ok.inj h))

/-- The new key file differs from the old one. -/
theorem signingKey_differs (certificate certificate' : SampleKey) :
    pairFiles certificate secondKey .signingKey ≠ pairFiles certificate' firstKey .signingKey := by
  intro h
  exact SampleKey.keyPem_ne (utf8_injective (Except.ok.inj h))

/-- The files hold a certificate and a key of the two. -/
def OfKnownKeys (files : KeyFiles) : Prop :=
  ∃ certificate signingKey, certificate.Known ∧ signingKey.Known ∧
    files = pairFiles certificate signingKey

/-- What the files of the two keys hold has digests of its own. -/
theorem distinguishes_sample {held : List KeyFiles} (h : ∀ files ∈ held, OfKnownKeys files) :
    Distinguishes fileSha256 held := by
  intro files hfiles files' hfiles' file bytes bytes' hread hread' hsame
  obtain ⟨certificate, signingKey, hcert, hkey, rfl⟩ := h files hfiles
  obtain ⟨certificate', signingKey', hcert', hkey', rfl⟩ := h files' hfiles'
  cases file with
  | certificate =>
      cases hread
      cases hread'
      rw [eq_of_fileSha256_certificate hcert hcert' hsame]
  | signingKey =>
      cases hread
      cases hread'
      rw [eq_of_fileSha256_key hkey hkey' hsame]

/-- The second certificate has been written, beside the first key. -/
theorem reached_half : Reached firstKey (fun files => ∃ certificate, certificate.Known ∧
      files = pairFiles certificate firstKey)
    ⟨pairFiles secondKey firstKey, 1, some (sampleMaterial firstKey),
      .waiting (fingerprintAll fileSha256 (pairFiles firstKey firstKey))⟩ := by
  refine (reached_waiting (.inl rfl)).write rfl ?_ (fun _ h => ⟨firstKey, .inl rfl, h⟩)
    ⟨secondKey, .inr rfl, rfl⟩
  intro held hheld file bytes hfile
  cases file with
  | signingKey => exact .inl rfl
  | certificate =>
      right
      intro earlier hmem hsame
      rw [hheld earlier hmem] at hsame
      exact certificate_differs _ _ (hfile.trans hsame.symm)

/-- The callback has read the second certificate, and the first key is still there. -/
theorem reached_loading : Reached firstKey (fun files => ∃ certificate, certificate.Known ∧
      files = pairFiles certificate firstKey)
    ⟨pairFiles secondKey firstKey, 0, some (sampleMaterial firstKey),
      .loading (fingerprintAll fileSha256 (pairFiles secondKey firstKey))
        secondKey.certificatePem⟩ := by
  have hnew : fingerprintAll fileSha256 (pairFiles secondKey firstKey) ≠
      fingerprintAll fileSha256 (pairFiles firstKey firstKey) := by
    intro h
    have hsame := eq_of_fileSha256_certificate (.inr rfl) (.inl rfl)
      (Option.some.inj (congrArg Prod.fst h))
    exact SampleKey.publicKey_ne (congrArg SampleKey.publicKey hsame)
  exact (reached_half.round hnew).readCertificate

/-- The second key is written before the callback reads it. -/
theorem reached_torn : Reached firstKey OfKnownKeys
    ⟨pairFiles secondKey secondKey, 1, some (sampleMaterial secondKey),
      .waiting (fingerprintAll fileSha256 (pairFiles secondKey firstKey))⟩ := by
  have htorn : Reached firstKey OfKnownKeys
      ⟨pairFiles secondKey secondKey, 1, some (sampleMaterial firstKey),
        .loading (fingerprintAll fileSha256 (pairFiles secondKey firstKey))
          secondKey.certificatePem⟩ := by
    refine reached_loading.write rfl ?_ ?_ ⟨secondKey, secondKey, .inr rfl, .inr rfl, rfl⟩
    · intro held hheld file bytes hfile
      cases file with
      | certificate => exact .inl rfl
      | signingKey =>
          right
          intro earlier hmem hsame
          obtain ⟨certificate, _, rfl⟩ := hheld earlier hmem
          exact signingKey_differs _ _ (hfile.trans hsame.symm)
    · intro earlier hearlier
      obtain ⟨certificate, hknown, rfl⟩ := hearlier
      exact ⟨certificate, firstKey, hknown, .inl rfl, rfl⟩
  exact htorn.readSigningKey (.inr rfl)

/-- A run under any condition is a run. -/
theorem Run.free {D : Type} [DecidableEq D] {lib : Libraries} {sha256 : List Byte → D}
    {may : List KeyFiles → Server D → Action → Prop} {s₀ s : Server D}
    (h : Run lib sha256 may s₀ held s) : Run lib sha256 (fun _ _ _ => True) s₀ held s := by
  induction h with
  | nil => exact .nil
  | snoc _ _ hstep ih => exact .snoc ih trivial hstep

/-- The key of a sample certificate. -/
theorem leafKey_sample {k : SampleKey} (hk : k.Known) :
    leafKey sampleLibraries k.certificatePem = some k.publicKey := by
  simp only [leafKey, hk.parseX509Pem_eq, hk.parseX509Certificate_eq]

/-- The second certificate and the first key do not load. -/
theorem loadSigningKey_mixed (material : SigningMaterial) :
    loadSigningKey sampleLibraries secondKey.certificatePem
      (pairFiles secondKey firstKey .signingKey) ≠ .ok material := by
  intro h
  obtain ⟨signingKeyPem, hkey, hvalid⟩ := loadSigningKey_eq_ok h
  rw [readToString_signingKey] at hkey
  cases hkey
  obtain ⟨_, hvalidate, _⟩ := CheckedEval.bind_eq_ok hvalid
  obtain ⟨pk, hleaf, hpublic⟩ := leafKey_of_validate hvalidate
  rw [leafKey_sample (.inr rfl)] at hleaf
  rw [SampleKey.Known.publicKeyOf_eq (.inl rfl), ← hleaf] at hpublic
  exact SampleKey.publicKey_ne (Option.some.inj hpublic).symm

/-- The load whose two reads are on both sides of a write gives the second pair; without the
write it fails, and the first pair stays. -/
theorem certificates_never_mixed_sample :
    (∃ k, k.Known ∧ loadAndValidateSigningMaterial sampleLibraries (pairFiles k k) =
      .ok (sampleMaterial secondKey)) ∧
    ∃ held s s', Run sampleLibraries fileSha256 Renewing (booting (pairFiles firstKey firstKey))
        held s ∧
      s.phase.certPem = some secondKey.certificatePem ∧
      s.step sampleLibraries fileSha256 .readSigningKey = some s' ∧
      s'.active = some (sampleMaterial firstKey) := by
  constructor
  · obtain ⟨held, hrun, hheld⟩ := reached_torn
    obtain ⟨hserved, _⟩ := certificates_never_mixed sampleLibraries_pemIteration hrun.free
    have hloaded := (hserved _ rfl).2
      (fun k : { k : SampleKey // k.Known } => pairFiles k.1 k.1) ?_ ?_ ?_
    · obtain ⟨k, hload⟩ := hloaded
      exact ⟨k.1, k.2, hload⟩
    · intro files hmem _ _ _ _
      obtain ⟨certificate, signingKey, hknown, _, rfl⟩ := hheld files hmem
      exact ⟨⟨certificate, hknown⟩, rfl⟩
    · intro files hmem _ _ _ _
      obtain ⟨certificate, signingKey, _, hknown, rfl⟩ := hheld files hmem
      exact ⟨⟨signingKey, hknown⟩, rfl⟩
    · intro v w certPem signingKeyPem hcert hkey hsame
      rw [readToString_certificate] at hcert
      rw [readToString_signingKey] at hkey
      rw [← Except.ok.inj hcert, ← Except.ok.inj hkey, leafKey_sample v.2,
        w.2.publicKeyOf_eq] at hsame
      exact Subtype.ext (v.2.eq_of_feature w.2 SampleKey.publicKey_ne (Option.some.inj hsame))
  · obtain ⟨held, hrun, _⟩ := reached_loading
    obtain ⟨_, hsteps⟩ := certificates_never_mixed sampleLibraries_pemIteration hrun.free
    cases hload : loadSigningKey sampleLibraries secondKey.certificatePem
        (pairFiles secondKey firstKey .signingKey) with
    | ok material => exact absurd hload (loadSigningKey_mixed material)
    | error e =>
        refine ⟨held, _, _, hrun, rfl, step_refused hload, ?_⟩
        rcases hsteps _ _ (step_refused hload) with hkept | ⟨certPem, loaded, hcert, hloaded, _⟩
        · exact hkept
        · obtain rfl := Option.some.inj hcert
          exact absurd hloaded (loadSigningKey_mixed loaded)

/-- After another round the server rests with the second pair. -/
theorem certificate_rotation_takes_effect_sample :
    ∃ held s, Run sampleLibraries fileSha256 Renewing (booting (pairFiles firstKey firstKey))
        held s ∧
      s.quiet = true ∧ s.files = pairFiles secondKey secondKey ∧
      s.active = some (sampleMaterial secondKey) := by
  have hnew : fingerprintAll fileSha256 (pairFiles secondKey secondKey) ≠
      fingerprintAll fileSha256 (pairFiles secondKey firstKey) := by
    intro h
    have hsame := eq_of_fileSha256_key (.inr rfl) (.inl rfl)
      (Option.some.inj (congrArg Prod.snd h))
    exact SampleKey.publicKey_ne (congrArg SampleKey.publicKey hsame)
  have hrested := (reached_torn.round hnew).readCertificate.readSigningKey (.inr rfl)
  obtain ⟨held, hrun, hheld⟩ := hrested
  refine ⟨held, _, hrun, rfl, rfl, ?_⟩
  exact (certificate_rotation_takes_effect hrun (distinguishes_sample hheld) rfl).2 _
    (load_sample (.inr rfl))

end Server

end Samples

end CertReload

end StatusListServer
