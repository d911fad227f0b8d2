import StonksPaper.Artifacts.Store

/-!
# Retrying a finalize

Any number of writers finalize one content with one metadata, each at its own time, and each may
stop after any request. The lock of the object is that of the first writer, and every later writer
compares it with its own. Where the locks agree, or there are none, all writers converge.
-/

namespace StonksPaper.Artifacts

open Program

/-- Writers of one content. -/
structure Writers (ι : Type) where
  content : List UInt8
  metadata : ArtifactMetadata
  finalizedAt : ι → UTCDateTime

section

variable [ArtifactEncoding] {ι : Type} (store : S3ArtifactStore) (w : Writers ι)

namespace Writers

def contentHash : Sha256 := sha256 (.content w.content)

def requested (i : ι) : ArtifactManifest :=
  ⟨w.contentHash, w.content.length, w.metadata, w.finalizedAt i⟩

@[simp] theorem requested_contentHash (i : ι) : (w.requested i).contentHash = w.contentHash := rfl

@[simp] theorem requested_sizeBytes (i : ι) : (w.requested i).sizeBytes = w.content.length := rfl

@[simp] theorem requested_metadata (i : ι) : (w.requested i).metadata = w.metadata := rfl

/-- The object as a writer puts it. -/
def object (i : ι) : S3Response :=
  { object :=
      { body := .content w.content
        contentType := w.metadata.mediaType
        kind := .object
        contentHash := w.contentHash
        checksum := w.contentHash
        encryption := store.encryption
        kmsKeyId := store.kmsKeyId }
    retention := store.retentionFor (w.requested i) }

/-- The manifest as a writer puts it. -/
def manifest (i : ι) : S3Response :=
  { object :=
      { body := .json (store.envelope (w.requested i))
        contentType := manifestMediaType
        kind := .manifest
        contentHash := w.contentHash
        checksum := sha256 (.json (store.envelope (w.requested i)))
        encryption := store.encryption
        kmsKeyId := store.kmsKeyId }
    retention := store.retentionFor (w.requested i) }

/-- The store takes the content, and the envelopes of the writers. -/
structure Accepted : Prop where
  valid : store.Valid
  content : w.content.length ≤ store.maxSizeBytes
  envelopes : ∀ i, jsonSize (store.envelope (w.requested i)) ≤ maxManifestSizeBytes

def LocksAgree : Prop := store.retention = none ∨ ∀ i j, w.finalizedAt i = w.finalizedAt j

end Writers

open Writers

variable {store w}

theorem Writers.LocksAgree.retentionFor_eq (h : w.LocksAgree store) (i j : ι) :
    store.retentionFor (w.requested i) = store.retentionFor (w.requested j) := by
  rcases h with hnone | hsame
  · simp [S3ArtifactStore.retentionFor, hnone]
  · simp [S3ArtifactStore.retentionFor, requested, hsame i j]

theorem Writers.Accepted.consume_object (haccepted : w.Accepted store) (hlocks : w.LocksAgree store)
    (i j : ι) : store.consume (w.object store i) (store.expectedObject (w.requested j)) =
      .success (.content w.content) := by
  have hretention : S3ArtifactStore.validateRetentionResponse (w.object store i)
      (store.retentionFor (w.requested j)) = .success () :=
    failUnless_of (fun expected hexpected => (hlocks.retentionFor_eq i j).trans hexpected) _ _
  have hlength := haccepted.content
  have hexpected : (store.expectedObject (w.requested j)).retention =
      store.retentionFor (w.requested j) := rfl
  simp only [S3ArtifactStore.consume, S3ArtifactStore.validateResponse, hexpected, hretention]
  simp [failUnless_of, Body.size, S3ArtifactStore.expectedObject, object, hlength, contentHash]

theorem Writers.Accepted.openEnvelope_manifest (haccepted : w.Accepted store) (i : ι) :
    store.openEnvelope w.contentHash (w.manifest store i) =
      .success (store.envelope (w.requested i)) := by
  have hsize := haccepted.envelopes i
  have hlength := haccepted.content
  have hvalid : (store.envelope (w.requested i)).Valid := ⟨rfl, haccepted.valid.key⟩
  simp only [S3ArtifactStore.openEnvelope, S3ArtifactStore.consume,
    S3ArtifactStore.validateResponse, S3ArtifactStore.validateRetentionResponse,
    S3ArtifactStore.expectedEnvelope, manifest]
  simp [failUnless_of, Body.size, hsize, S3ArtifactStore.parseEnvelope, hvalid]
  simp [failUnless_of, S3ArtifactStore.envelope, hlength]

/-! ## What the writers keep -/

namespace Writers

def Placed (w : Writers ι) (b : S3Bucket) : Prop := (b.live (.object w.contentHash)).isSome

def Published (store : S3ArtifactStore) (w : Writers ι) (i : ι) (b : S3Bucket) : Prop :=
  b.live (.manifest w.contentHash) = some (w.manifest store i)

/-- The two keys hold what a writer puts, and the manifest comes last. -/
structure Orderly (store : S3ArtifactStore) (w : Writers ι) (b : S3Bucket) : Prop where
  object : ∀ x, b.live (.object w.contentHash) = some x → ∃ i, x = w.object store i
  manifest : ∀ x, b.live (.manifest w.contentHash) = some x →
    (∃ i, x = w.manifest store i) ∧ w.Placed b

/-- What the two keys hold stays. -/
def Keeps (w : Writers ι) (b b' : S3Bucket) : Prop :=
  ∀ key, key = .object w.contentHash ∨ key = .manifest w.contentHash →
    ∀ x, b.live key = some x → b'.live key = some x

/-- What a writer may ask for. -/
def Allows (store : S3ArtifactStore) (w : Writers ι) : S3Request → S3Bucket → Prop
  | .getObject _, _ => True
  | .putObject key object retention, b =>
      (key = .object w.contentHash ∧ ∃ i, (⟨object, retention⟩ : S3Response) = w.object store i) ∨
        (key = .manifest w.contentHash ∧ w.Placed b ∧
          ∃ i, (⟨object, retention⟩ : S3Response) = w.manifest store i)
  | _, _ => False

def discipline (store : S3ArtifactStore) (w : Writers ι) : S3Discipline :=
  { rely := fun _ b b' => w.Keeps b b'
    invariant := w.Orderly store
    guard := w.Allows store
    rely_refl := fun _ _ _ _ _ h => h
    rely_trans := fun _ _ _ _ hst htu key hkey x h => htu key hkey x (hst key hkey x h) }

variable {b b' : S3Bucket} {r : S3Request}

theorem Placed.keep (hkeeps : w.Keeps b b') (h : w.Placed b) : w.Placed b' := by
  obtain ⟨x, hx⟩ := Option.isSome_iff_exists.mp h
  exact Option.isSome_iff_exists.mpr ⟨x, hkeeps _ (.inl rfl) x hx⟩

theorem Published.keep {i : ι} (hkeeps : w.Keeps b b') (h : w.Published store i b) :
    w.Published store i b' :=
  hkeeps _ (.inr rfl) _ h

theorem Orderly.placed {i : ι} (hb : w.Orderly store b) (h : w.Published store i b) : w.Placed b :=
  (hb.manifest _ h).2

theorem Allows.keeps (h : w.Allows store r b) (choice : S3Choice) :
    w.Keeps b (S3Bucket.serve choice b r).2 := by
  intro key _ x hx
  refine S3Bucket.live_serve choice ?_ hx
  cases r with
  | putObject key object retention => exact id
  | getObject key => exact id
  | _ => exact absurd h id

theorem Allows.perform_orderly (hb : w.Orderly store b) (h : w.Allows store r b) :
    w.Orderly store (b.perform r).2 := by
  cases r with
  | getObject key => exact hb
  | putObject key object retention =>
      cases hlive : b.live key with
      | some taken =>
          rw [S3Bucket.perform_put_of_taken hlive]
          exact hb
      | none =>
          rw [S3Bucket.perform_put_of_free hlive]
          rcases h with ⟨rfl, hput⟩ | ⟨rfl, hplaced, hput⟩
          · constructor
            · intro x hx
              rw [S3Bucket.live_put, if_pos rfl] at hx
              cases hx
              exact hput
            · intro x hx
              rw [S3Bucket.live_put, if_neg (by simp)] at hx
              refine ⟨(hb.manifest x hx).1, ?_⟩
              simp [Placed, S3Bucket.live_put]
          · constructor
            · intro x hx
              rw [S3Bucket.live_put, if_neg (by simp)] at hx
              exact hb.object x hx
            · intro x hx
              rw [S3Bucket.live_put, if_pos rfl] at hx
              cases hx
              refine ⟨hput, ?_⟩
              simpa [Placed, S3Bucket.live_put] using hplaced
  | _ => exact absurd h id

theorem Allows.orderly (hb : w.Orderly store b) (h : w.Allows store r b) (choice : S3Choice) :
    w.Orderly store (S3Bucket.serve choice b r).2 := by
  cases choice with
  | answered => exact h.perform_orderly hb
  | refused => exact hb
  | lost => exact h.perform_orderly hb

end Writers

/-! ## One writer among others -/

/-- How a call of a writer ends: with a published manifest, or after a request that is not
answered. -/
def Writers.Ends (store : S3ArtifactStore) (w : Writers ι) (flag : Bool)
    (end_ : Call ArtifactManifest) (b : S3Bucket) : Prop :=
  (∀ m, end_ = .success m → ∃ i, m = w.requested i ∧ w.Published store i b) ∧
    (flag = true → end_.Succeeds)

theorem Writers.Ends.disturbed {error : Failure} {b : S3Bucket} :
    w.Ends store false (.failure error) b := by
  constructor
  · intro m h
    cases h
  · intro h
    cases h

variable {flag : Bool} {b : S3Bucket}

theorem Writers.safe_keeps {α : Type} {post : Bool → α → S3Bucket → Prop}
    {p : Program S3Request S3Answer α} (h : Safe (w.discipline store).protocol post flag p b) :
    Safe (w.discipline store).protocol (fun flag a b' => post flag a b' ∧ w.Keeps b b') flag p b :=
  h.frame (fun _ _ _ hst htu key hkey x hx => htu key hkey x (hst key hkey x hx))
    (fun _ _ _ hrely => hrely) (fun choice _ _ _ hguard => Allows.keeps hguard choice)

/-- A read of the object, once it is there. -/
theorem Writers.Accepted.readObject_safe (haccepted : w.Accepted store)
    (hlocks : w.LocksAgree store)
    (hplaced : w.Placed b) (i : ι) :
    Safe (w.discipline store).protocol
      (fun flag end_ _ => end_ = .success (.content w.content) ∨
        flag = false ∧ ∃ error, end_ = .failure error)
      flag (store.readObject (w.requested i)) b := by
  refine Safe.bind (Safe.map (request_safe (fun _ _ _ => trivial) ?_ ?_))
  · intro t hrely hinvariant _ u _ u' _
    obtain ⟨x, hx⟩ := Option.isSome_iff_exists.mp (hplaced.keep hrely)
    obtain ⟨j, rfl⟩ := hinvariant.object x hx
    rw [requested_contentHash, S3Bucket.perform_get_of_live hx]
    refine ofAttempt_safe fun v _ => .inl ?_
    exact haccepted.consume_object hlocks j i
  · intro t _ _ u u' _
    exact ofAttempt_safe fun v _ => .inr ⟨rfl, _, rfl⟩

/-- What reading the envelope says: it is published, or there is none (unless one was known), or the
answer did not come. -/
def Writers.Reads (store : S3ArtifactStore) (w : Writers ι) (known : Prop) (flag : Bool)
    (end_ : Call StoredArtifactManifestEnvelope) (b : S3Bucket) : Prop :=
  (∃ i, end_ = .success (store.envelope (w.requested i)) ∧ w.Published store i b ∧ w.Placed b) ∨
    ∃ error, end_ = .failure error ∧ (¬ known ∧ error.code = .notFound ∨ flag = false)

theorem Writers.Accepted.readEnvelope_safe (haccepted : w.Accepted store) (known : Prop)
    (hknown : known → ∃ i, w.Published store i b) :
    Safe (w.discipline store).protocol (w.Reads store known) flag
      (store.readEnvelope w.contentHash) b := by
  refine Safe.bind (request_safe (fun _ _ _ => trivial) ?_ ?_)
  · intro t hrely hinvariant _ u hu
    cases hlive : t.live (.manifest w.contentHash) with
    | some x =>
        obtain ⟨⟨i, rfl⟩, hplaced⟩ := hinvariant.manifest x hlive
        have hpublished : w.Published store i t := hlive
        rw [S3Bucket.perform_get_of_live hlive] at hu ⊢
        exact ofAttempt_safe fun v hv => .inl ⟨i, haccepted.openEnvelope_manifest i,
          (hpublished.keep hu).keep hv, (hplaced.keep hu).keep hv⟩
    | none =>
        rw [S3Bucket.perform_get_of_free hlive]
        refine ofAttempt_safe fun v _ => .inr ⟨_, rfl, .inl ⟨fun hk => ?_, rfl⟩⟩
        obtain ⟨i, hi⟩ := hknown hk
        have hpublished : w.Published store i t := hi.keep hrely
        rw [Published, hlive] at hpublished
        cases hpublished
  · intro t _ _ u
    exact ofAttempt_safe fun v _ => .inr ⟨_, rfl, .inr rfl⟩

/-- Reconciling with a published manifest ends with it. -/
theorem Writers.Accepted.reconcile_safe (haccepted : w.Accepted store) (hlocks : w.LocksAgree store)
    (hplaced : w.Placed b) {i : ι} (hpublished : w.Published store i b) (j : ι) :
    Safe (w.discipline store).protocol (w.Ends store) flag
      (store.reconcile (w.requested j) (store.envelope (w.requested i))) b := by
  have hmetadata : (store.envelope (w.requested i)).manifest.metadata =
      (w.requested j).metadata := rfl
  simp only [S3ArtifactStore.reconcile, failUnless_of hmetadata, ofAttempt_success_bind]
  refine Safe.bind ((safe_keeps (haccepted.readObject_safe hlocks hplaced i)).mono ?_)
  rintro flag end_ t ⟨rfl | ⟨rfl, error, rfl⟩, hkeeps⟩
  · intro u hu
    refine ⟨fun m hm => ?_, fun _ => ⟨_, rfl⟩⟩
    cases hm
    exact ⟨i, rfl, (hpublished.keep hkeeps).keep hu⟩
  · exact fun u _ => Ends.disturbed

/-- A writer that sees no manifest puts the object and reads it. -/
theorem Writers.Accepted.ensureObject_safe (haccepted : w.Accepted store)
    (hlocks : w.LocksAgree store) (i : ι) :
    Safe (w.discipline store).protocol
      (fun flag end_ b => end_ = .success () ∧ w.Placed b ∨
        flag = false ∧ ∃ error, end_ = .failure error)
      flag (store.ensureObject w.content (w.requested i)) b := by
  refine Safe.bind (request_safe (fun _ _ _ => .inl ⟨rfl, i, rfl⟩) ?_ ?_)
  · intro t _ _ hserved u hu
    have hplaced : w.Placed u := by
      refine Placed.keep hu ?_
      cases hlive : t.live (.object w.contentHash) with
      | some x =>
          rw [requested_contentHash, S3Bucket.perform_put_of_taken hlive]
          simp [Placed, hlive]
      | none =>
          rw [requested_contentHash, S3Bucket.perform_put_of_free hlive]
          simp [Placed, S3Bucket.live_put]
    have hread : ∀ outcome, Safe (w.discipline store).protocol
        (fun flag end_ b => end_ = .success () ∧ w.Placed b ∨
          flag = false ∧ ∃ error, end_ = .failure error) flag
        (andThen (fun _ : PutOutcome => do
          let _ ← store.readObject (w.requested i)
          return ()) (.success outcome)) u := by
      intro outcome
      refine Safe.bind ((safe_keeps (haccepted.readObject_safe hlocks hplaced i)).mono ?_)
      rintro flag end_ t ⟨rfl | ⟨rfl, error, rfl⟩, hkeeps⟩
      · exact fun u hu => .inl ⟨rfl, (hplaced.keep hkeeps).keep hu⟩
      · exact fun u _ => .inr ⟨rfl, _, rfl⟩
    cases hlive : t.live (.object w.contentHash) with
    | some x =>
        rw [requested_contentHash, S3Bucket.perform_put_of_taken hlive]
        exact hread .exists_
    | none =>
        rw [requested_contentHash, S3Bucket.perform_put_of_free hlive]
        exact hread .created
  · intro t _ _ u u' _
    exact .inr ⟨rfl, _, rfl⟩

/-- A writer whose object is there publishes, or finds what another has published. -/
theorem Writers.Accepted.publishManifest_safe (haccepted : w.Accepted store)
    (hlocks : w.LocksAgree store) (hplaced : w.Placed b) (i : ι) :
    Safe (w.discipline store).protocol (w.Ends store) flag
      (store.publishManifest (w.requested i)) b := by
  simp only [S3ArtifactStore.publishManifest, failUnless_of (haccepted.envelopes i),
    ofAttempt_success_bind]
  refine Safe.bind (request_safe (fun _ hrely _ => .inr ⟨rfl, hplaced.keep hrely, i, rfl⟩) ?_ ?_)
  · intro t hrely hinvariant hserved u hu
    have hpublished : ∃ j, w.Published store j (t.perform (.putObject (.manifest w.contentHash)
        (w.manifest store i).object (w.manifest store i).retention)).2 := by
      cases hlive : t.live (.manifest w.contentHash) with
      | some x =>
          obtain ⟨⟨j, rfl⟩, -⟩ := hinvariant.manifest x hlive
          rw [S3Bucket.perform_put_of_taken hlive]
          exact ⟨j, hlive⟩
      | none =>
          rw [S3Bucket.perform_put_of_free hlive]
          exact ⟨i, by rw [Published, S3Bucket.live_put, if_pos rfl]⟩
    obtain ⟨j, hpublished⟩ := hpublished
    have hread : ∀ outcome, Safe (w.discipline store).protocol (w.Ends store) flag
        (andThen (fun _ : PutOutcome => do
          let published ← store.readEnvelope (w.requested i).contentHash
          store.reconcile (w.requested i) published) (.success outcome)) u := by
      intro outcome
      refine Safe.bind ((haccepted.readEnvelope_safe True
        fun _ => ⟨j, hpublished.keep hu⟩).mono ?_)
      rintro flag end_ v (⟨k, rfl, hk, hplaced'⟩ | ⟨error, rfl, ⟨hnot, -⟩ | rfl⟩)
      · exact haccepted.reconcile_safe hlocks hplaced' hk i
      · exact absurd trivial hnot
      · exact fun v _ => Ends.disturbed
    cases hlive : t.live (.manifest w.contentHash) with
    | some x =>
        rw [requested_contentHash, S3Bucket.perform_put_of_taken hlive]
        exact hread .exists_
    | none =>
        rw [requested_contentHash, S3Bucket.perform_put_of_free hlive]
        exact hread .created
  · intro t _ _ u v _
    exact Ends.disturbed

/-- A call of a writer ends well whatever the other writers do meanwhile. -/
theorem Writers.Accepted.finalize_safe (haccepted : w.Accepted store)
    (hlocks : w.LocksAgree store) (i : ι) :
    Safe (w.discipline store).protocol (w.Ends store) flag
      (store.finalize w.content w.metadata (w.finalizedAt i)) b := by
  have hprepared : prepareManifest w.content w.metadata (w.finalizedAt i) store.maxSizeBytes =
      .success (w.requested i) := by
    simp [prepareManifest, failUnless_of haccepted.content]
    rfl
  simp only [S3ArtifactStore.finalize, hprepared, ofAttempt_success_bind]
  refine Safe.bind (Safe.map ((haccepted.readEnvelope_safe False False.elim).mono ?_))
  rintro flag end_ t (⟨j, rfl, hpublished, hplaced⟩ | ⟨error, rfl, hcode⟩) u hu
  · exact haccepted.reconcile_safe hlocks (hplaced.keep hu) (hpublished.keep hu) i
  · by_cases hfound : error.code = .notFound
    · have hwrites : Safe (w.discipline store).protocol (w.Ends store) flag
          (show S3Call ArtifactManifest from do
            store.ensureObject w.content (w.requested i)
            store.publishManifest (w.requested i)) u := by
        refine Safe.bind ((haccepted.ensureObject_safe hlocks i).mono ?_)
        rintro flag end_ v (⟨rfl, hplaced⟩ | ⟨rfl, error, rfl⟩)
        · exact haccepted.publishManifest_safe hlocks hplaced i
        · exact fun v _ => Ends.disturbed
      simpa [andThen, hfound] using hwrites
    · have hdisturbed : flag = false :=
        hcode.resolve_left fun h => hfound h.2
      subst hdisturbed
      have hends : Safe (w.discipline store).protocol (w.Ends store) false
          (ofAttempt (.failure error)) u := ofAttempt_safe fun _ _ => Ends.disturbed
      simpa [andThen, hfound] using hends

/-! ## Every interleaving -/

def Writers.Unwritten (w : Writers ι) (b : S3Bucket) : Prop :=
  ∀ v ∈ b.versions, v.key ≠ .object w.contentHash ∧ v.key ≠ .manifest w.contentHash

/-- The writers before their first requests. -/
def Writers.start (store : S3ArtifactStore) (w : Writers ι) (b : S3Bucket) :
    S3System ι fun _ => Call ArtifactManifest :=
  { state := b
    program := fun i => store.finalize w.content w.metadata (w.finalizedAt i)
    undisturbed := fun _ => true }

variable [DecidableEq ι]

/-- In every interleaving a call whose requests were all answered succeeds, the successes carry one
manifest, and from a success on a read returns the content. -/
def Writers.Converges (store : S3ArtifactStore) (w : Writers ι) (b : S3Bucket) : Prop :=
  ∀ events : List (S3Event ι), let S := (w.start store b).run events
    (∀ i end_, S.undisturbed i = true → S.result i = some end_ → end_.Succeeds) ∧
    (∀ i j m m', S.result i = some (.success m) → S.result j = some (.success m') → m = m') ∧
    (∀ i m, S.result i = some (.success m) → ∀ states : ℕ → S3Bucket,
      (∀ n, ∃ later, states n = (S.run later).state) →
        (store.read w.contentHash).along (fun b r => (b.perform r).1) states =
          .success (.content w.content))

omit [DecidableEq ι] in
theorem Writers.Unwritten.live_eq_none (h : w.Unwritten b) :
    b.live (.object w.contentHash) = none ∧ b.live (.manifest w.contentHash) = none := by
  have hnone : ∀ key, (∀ v ∈ b.versions, v.key ≠ key) → b.live key = none := by
    intro key hkey
    have hlatest : b.latest key = none :=
      List.find?_eq_none.mpr fun v hv => by simpa using hkey v hv
    simp [S3Bucket.live, hlatest]
  exact ⟨hnone _ fun v hv => (h v hv).1, hnone _ fun v hv => (h v hv).2⟩

theorem Writers.run_secure {S : S3System ι fun _ => Call ArtifactManifest}
    (hS : (w.discipline store).protocol.Secure (fun _ => w.Ends store) S)
    (events : List (S3Event ι)) :
    (w.discipline store).protocol.Secure (fun _ => w.Ends store) (S.run events) := by
  refine Protocol.run_safe hS (Run.meets_iff.mpr fun before event after _ hsecure => ?_)
  cases event with
  | act elapsed =>
      refine ⟨⟨hsecure.invariant.object, hsecure.invariant.manifest⟩, fun i => ?_⟩
      exact fun key _ x hx => hx
  | serve i choice =>
      intro r _ hguard
      exact ⟨Allows.orderly hsecure.invariant hguard choice,
        fun j _ => Allows.keeps hguard choice⟩

omit [DecidableEq ι] in
theorem Writers.Accepted.start_secure (haccepted : w.Accepted store) (hlocks : w.LocksAgree store)
    (hfresh : w.Unwritten b) :
    (w.discipline store).protocol.Secure (fun _ => w.Ends store) (w.start store b) := by
  obtain ⟨hobject, hmanifest⟩ := hfresh.live_eq_none
  refine ⟨⟨fun x hx => ?_, fun x hx => ?_⟩, fun i => haccepted.finalize_safe hlocks i⟩
  · rw [start, hobject] at hx
    cases hx
  · rw [start, hmanifest] at hx
    cases hx

omit [DecidableEq ι] in
/-- A read in states that hold a published manifest. -/
theorem Writers.Accepted.read_along (haccepted : w.Accepted store) (hlocks : w.LocksAgree store)
    {states : ℕ → S3Bucket} {i : ι}
    (hstates : ∀ n, w.Orderly store (states n) ∧ w.Published store i (states n)) :
    (store.read w.contentHash).along (fun b r => (b.perform r).1) states =
      .success (.content w.content) := by
  obtain ⟨-, hpublished⟩ := hstates 0
  obtain ⟨horderly, hpublished'⟩ := hstates 1
  obtain ⟨x, hx⟩ := Option.isSome_iff_exists.mp (horderly.placed hpublished')
  obtain ⟨j, rfl⟩ := horderly.object x hx
  have hopen := haccepted.openEnvelope_manifest i
  have hconsume := haccepted.consume_object hlocks j i
  rw [S3ArtifactStore.read, S3ArtifactStore.readEnvelope, S3ArtifactStore.get, bind_assoc,
    along_request_bind, S3Bucket.perform_get_of_live hpublished]
  simp only [andThen, hopen, ofAttempt_success_bind]
  simp only [S3ArtifactStore.readObject, S3ArtifactStore.get, mapFailure_request,
    S3ArtifactStore.envelope, requested_contentHash]
  rw [along_request_bind, S3Bucket.perform_get_of_live hx]
  simp only [reword, andThen]
  exact hconsume

theorem Writers.Accepted.converges (haccepted : w.Accepted store) (hlocks : w.LocksAgree store)
    (hfresh : w.Unwritten b) : w.Converges store b := by
  intro events S
  have hsecure : (w.discipline store).protocol.Secure (fun _ => w.Ends store) S :=
    run_secure (haccepted.start_secure hlocks hfresh) events
  refine ⟨fun i end_ hflag hend => (hsecure.returned hend).2 hflag, ?_, ?_⟩
  · intro i j m m' hm hm'
    obtain ⟨k, rfl, hk⟩ := (hsecure.returned hm).1 m rfl
    obtain ⟨k', rfl, hk'⟩ := (hsecure.returned hm').1 m' rfl
    have hsame := Option.some.inj ((hk : S.state.live _ = _).symm.trans hk')
    have hbody := congrArg (fun x : S3Response => x.object.body) hsame
    simp only [manifest, S3ArtifactStore.envelope, Body.json.injEq,
      StoredArtifactManifestEnvelope.mk.injEq] at hbody
    exact hbody.2.2.2.2.2
  · intro i m hm states hstates
    obtain ⟨k, rfl, -⟩ := (hsecure.returned hm).1 m rfl
    refine haccepted.read_along (i := k) hlocks fun n => ?_
    obtain ⟨later, hlater⟩ := hstates n
    have hafter := run_secure hsecure later
    obtain ⟨k', hk', hpublished⟩ := (hafter.returned (System.result_run hm later)).1 _ rfl
    have hmanifest : w.manifest store k' = w.manifest store k := by
      simp only [manifest, hk']
    rw [hlater]
    exact ⟨hafter.invariant, (hpublished : _ = _).trans (congrArg some hmanifest)⟩

/-! ## Locks that differ -/

omit [DecidableEq ι] in
/-- A writer that has found no manifest and the object of another, under another lock. -/
theorem Writers.consume_object_of_ne {i j : ι}
    (hne : store.retentionFor (w.requested i) ≠ store.retentionFor (w.requested j))
    (hsome : store.retentionFor (w.requested j) ≠ none) :
    ∃ error, store.consume (w.object store i) (store.expectedObject (w.requested j)) =
      .failure error := by
  obtain ⟨expected, hexpected⟩ := Option.ne_none_iff_exists'.mp hsome
  have hmismatch : ¬ ∀ lock ∈ store.retentionFor (w.requested j),
      (w.object store i).retention = some lock := by
    intro hall
    exact hne ((hall expected hexpected).trans hexpected.symm)
  cases hconsume : store.consume (w.object store i) (store.expectedObject (w.requested j)) with
  | failure error => exact ⟨error, rfl⟩
  | success body =>
      simp only [S3ArtifactStore.consume, S3ArtifactStore.validateResponse,
        S3ArtifactStore.validateRetentionResponse, Attempt.bind_eq_success,
        failUnless_eq_success] at hconsume
      obtain ⟨_, ⟨_, -, hretention⟩, -⟩ := hconsume
      exact absurd hretention hmismatch
  | raised error => exact absurd hconsume (store.consume_returns _ _ error)

omit [DecidableEq ι] in
/-- The first requests of a call that finds no manifest. -/
theorem Writers.Accepted.finalize_opens (haccepted : w.Accepted store) (i : ι) :
    ∃ next, store.finalize w.content w.metadata (w.finalizedAt i) =
        ask (.getObject (.manifest w.contentHash)) next ∧
      ∃ next', next (.error .notFound) = ask (.putObject (.object w.contentHash)
          (w.object store i).object (w.object store i).retention) next' ∧
        ∃ next'', next' (.error .preconditionFailed) =
            ask (.getObject (.object w.contentHash)) next'' ∧
          ∀ response error, store.consume response (store.expectedObject (w.requested i)) =
            .failure error → next'' (.ok response) = done (.failure error) := by
  have hprepared : prepareManifest w.content w.metadata (w.finalizedAt i) store.maxSizeBytes =
      .success (w.requested i) := by
    simp [prepareManifest, failUnless_of haccepted.content]
    rfl
  simp only [S3ArtifactStore.finalize, hprepared, ofAttempt_success_bind]
  refine ⟨_, rfl, _, rfl, _, rfl, fun response error hconsume => ?_⟩
  show Program.bind _ (Program.bind _ (Program.bind _
    (ofAttempt (store.consume response (store.expectedObject (w.requested i)))))) = _
  rw [hconsume]
  rfl

omit [ArtifactEncoding] in
/-- A request that is answered. -/
theorem Writers.step_answered {S : S3System ι fun _ => Call ArtifactManifest} {i : ι}
    {r : S3Request} {next : S3Answer r → Program S3Request S3Answer (Call ArtifactManifest)}
    {answer : S3Answer r} {b' : S3Bucket} (hprogram : S.program i = ask r next)
    (hperform : S.state.perform r = (answer, b')) :
    ∃ T : S3System ι fun _ => Call ArtifactManifest,
      (∀ events, S.run (.serve i .answered :: events) = T.run events) ∧ T.state = b' ∧
        T.program i = next answer ∧ (∀ j, j ≠ i → T.program j = S.program j) ∧
        ∀ j, T.undisturbed j = S.undisturbed j := by
  have hstep : S.step S3Bucket.serve (fun choice => choice = .answered) S3Bucket.wait
      (.serve i .answered) = _ := System.step_of_ask hprogram S3Choice.answered
  refine ⟨_, fun events => congrArg (fun T => S3System.run T events) hstep, ?_⟩
  have hserve : S3Bucket.serve .answered S.state r = (answer, b') := hperform
  simp only [hserve, Function.update_self]
  refine ⟨trivial, trivial, fun j hj => Function.update_of_ne hj _ _, fun j => ?_⟩
  by_cases hj : j = i
  · subst hj
    simp
  · simp [hj]

/-- Two locks that differ: one writer stops after its object, and the other fails. -/
theorem Writers.Accepted.not_converges (haccepted : w.Accepted store)
    (hlocks : ¬ w.LocksAgree store)
    (hfresh : w.Unwritten b) : ¬ w.Converges store b := by
  intro hconverges
  simp only [LocksAgree, not_or, not_forall] at hlocks
  obtain ⟨hpolicy, i, j, htimes⟩ := hlocks
  obtain ⟨policy, hpolicy⟩ := Option.ne_none_iff_exists'.mp hpolicy
  have hij : i ≠ j := fun h => htimes (by rw [h])
  have hne : store.retentionFor (w.requested i) ≠ store.retentionFor (w.requested j) := by
    simp [S3ArtifactStore.retentionFor, hpolicy, requested, htimes]
  have hsome : store.retentionFor (w.requested j) ≠ none := by
    simp [S3ArtifactStore.retentionFor, hpolicy]
  obtain ⟨hobject, hmanifest⟩ := hfresh.live_eq_none
  obtain ⟨first, hi, second, hi', -⟩ := haccepted.finalize_opens i
  obtain ⟨first', hj, second', hj', third', hj'', hend⟩ := haccepted.finalize_opens j
  obtain ⟨error, hconsume⟩ := consume_object_of_ne hne hsome
  -- The first writer looks for a manifest, puts its object, and stops.
  obtain ⟨S₁, hrun₁, hstate₁, hself₁, hothers₁, hflags₁⟩ :=
    step_answered (S := w.start store b) (i := i) hi (S3Bucket.perform_get_of_free hmanifest)
  obtain ⟨S₂, hrun₂, hstate₂, -, hothers₂, hflags₂⟩ := step_answered (hself₁.trans hi')
    ((congrArg (fun b => S3Bucket.perform b _) hstate₁).trans
      (S3Bucket.perform_put_of_free hobject))
  have hplaced : S₂.state.live (.object w.contentHash) = some (w.object store i) := by
    rw [hstate₂, S3Bucket.live_put, if_pos rfl]
  have hfree : S₂.state.live (.manifest w.contentHash) = none := by
    rw [hstate₂, S3Bucket.live_put, if_neg (by simp)]
    exact hmanifest
  have hprogram : S₂.program j = ask (.getObject (.manifest w.contentHash)) first' := by
    rw [hothers₂ j hij.symm, hothers₁ j hij.symm]
    exact hj
  -- The second writer finds no manifest, its own put refused, and the other's lock.
  obtain ⟨S₃, hrun₃, hstate₃, hself₃, -, hflags₃⟩ :=
    step_answered hprogram (S3Bucket.perform_get_of_free hfree)
  obtain ⟨S₄, hrun₄, hstate₄, hself₄, -, hflags₄⟩ := step_answered (hself₃.trans hj')
    ((congrArg (fun b => S3Bucket.perform b _) hstate₃).trans
      (S3Bucket.perform_put_of_taken hplaced))
  obtain ⟨S₅, hrun₅, -, hself₅, -, hflags₅⟩ := step_answered (hself₄.trans hj'')
    ((congrArg (fun b => S3Bucket.perform b _) hstate₄).trans
      (S3Bucket.perform_get_of_live hplaced))
  have hrun : (w.start store b).run [.serve i .answered, .serve i .answered, .serve j .answered,
      .serve j .answered, .serve j .answered] = S₅ := by
    rw [hrun₁, hrun₂, hrun₃, hrun₄, hrun₅]
    rfl
  have hresult : S₅.result j = some (.failure error) := by
    rw [System.result, hself₅, hend _ _ hconsume]
    rfl
  have hflag : S₅.undisturbed j = true := by
    rw [hflags₅, hflags₄, hflags₃, hflags₂, hflags₁]
    rfl
  obtain ⟨hsucceeds, -⟩ := hconverges [.serve i .answered, .serve i .answered,
    .serve j .answered, .serve j .answered, .serve j .answered]
  rw [hrun] at hsucceeds
  obtain ⟨m, hm⟩ := hsucceeds j _ hflag hresult
  cases hm

end

/-! ## Two writers of one artifact -/

namespace Scenario

/-- Contents and envelopes, told apart by their bytes and their times. -/
instance sampleEncoding : ArtifactEncoding :=
  { sha256 := fun
      | .content bytes => 2 * bytes.foldl (fun code byte => 256 * code + byte.toNat) 1
      | .json envelope => 2 * envelope.manifest.finalizedAt.toNat + 1
    jsonSize := fun _ => 768 }

/-- A store that locks every artifact for thirty days. -/
def governed : S3ArtifactStore :=
  { encryption := .aes256
    kmsKeyId := none
    retention := some fun _ => (.governance, 30)
    maxSizeBytes := 4096 }

def unlocked : S3ArtifactStore := { governed with retention := none }

/-- One artifact, tried twice, a day apart. -/
def retried : Writers (Fin 2) :=
  { content := [97]
    metadata := ⟨"application/json", "internal-research", .internal, "adapter-test", []⟩
    finalizedAt := fun i => 1767225600000000 + i * microsecondsPerDay }

def emptyBucket : S3Bucket := ⟨[], 0, 1767225600000000⟩

theorem retried_accepted (store : S3ArtifactStore) (hvalid : store.Valid)
    (hmaximum : store.maxSizeBytes = 4096) : retried.Accepted store := by
  refine ⟨hvalid, ?_, fun i => ?_⟩
  · rw [hmaximum]
    decide
  · show (768 : ℕ) ≤ 65536
    decide

theorem retried_unwritten : retried.Unwritten emptyBucket := by
  intro v hv
  cases hv

end Scenario

end StonksPaper.Artifacts
