import StonksPaper.Artifacts.Bucket

/-!
# The artifact store

`adapters/artifacts/s3.py`: an artifact is its content under the object key and, put last, an
envelope with its manifest under the manifest key. Both puts are conditional; whoever finds a key
taken reads what is there.
-/

namespace StonksPaper.Artifacts

open Program

abbrev S3Call (α : Type) := Remote S3Request S3Answer Failure Exception α

def manifestMediaType : String := "application/vnd.stonks.artifact-manifest+json"

def maxManifestSizeBytes : ℕ := 65536

def microsecondsPerDay : ℤ := 86400000000

inductive PutOutcome where
  | created
  | exists_
deriving DecidableEq

def reword {α : Type} (f : Failure → Failure) : Call α → Call α
  | .failure error => .failure (f error)
  | end_ => end_

def mapFailure {α : Type} (f : Failure → Failure) (x : S3Call α) : S3Call α :=
  Program.map (reword f) x

@[simp] theorem mapFailure_request {α : Type} (f : Failure → Failure) (r : S3Request)
    (read : S3Answer r → Call α) :
    mapFailure f (Program.request r read) = Program.request r fun answer =>
      reword f (read answer) :=
  rfl

/-- The configuration of `S3ArtifactStore`. -/
structure S3ArtifactStore where
  encryption : ArtifactEncryption
  kmsKeyId : Option String
  retention : Option (Sensitivity → ArtifactRetentionMode × ℕ)
  maxSizeBytes : ℕ

/-- The checks of `StoredArtifactManifestEnvelope.validate_identity`. -/
def StoredArtifactManifestEnvelope.Valid (e : StoredArtifactManifestEnvelope) : Prop :=
  e.checksumSha256 = e.manifest.contentHash ∧ (e.encryption = .kms ↔ e.kmsKeyId ≠ none)

instance StoredArtifactManifestEnvelope.decidableValid (e : StoredArtifactManifestEnvelope) :
    Decidable e.Valid := inferInstanceAs (Decidable (_ ∧ _))

section

variable [ArtifactEncoding]

def prepareManifest (content : List UInt8) (metadata : ArtifactMetadata)
    (finalizedAt : UTCDateTime) (maxSizeBytes : ℕ) : Call ArtifactManifest := do
  failUnless (content.length ≤ maxSizeBytes) .invalidInput "Artifact exceeds size limit"
  return ⟨sha256 (.content content), content.length, metadata, finalizedAt⟩

namespace S3ArtifactStore

variable (self : S3ArtifactStore)

/-- `_validate_configuration`, as far as the calls depend on it. -/
structure Valid (store : S3ArtifactStore) : Prop where
  encryption : store.encryption ≠ .none
  key : store.encryption = .kms ↔ store.kmsKeyId ≠ none

def retentionFor (manifest : ArtifactManifest) : Option Retention :=
  self.retention.map fun policy =>
    ((policy manifest.metadata.sensitivity).1,
      manifest.finalizedAt + (policy manifest.metadata.sensitivity).2 * microsecondsPerDay)

def validateRetentionResponse (response : S3Response) (retention : Option Retention) : Call Unit :=
  failUnless (∀ expected ∈ retention, response.retention = some expected) .conflict
    "Artifact retention identity mismatch"

/-- What a response is compared with. -/
structure Expected where
  kind : StoredKind
  contentHash : Sha256
  contentType : String
  maximum : ℕ
  exactSize : Option ℕ
  verifyContentHash : Bool
  retention : Option Retention

def validateResponse (response : S3Response) (expected : Expected) : Call Unit := do
  failUnless (response.object.body.size ≤ expected.maximum ∧
      (∀ size ∈ expected.exactSize, response.object.body.size = size) ∧
      response.object.contentType = expected.contentType ∧
      response.object.kind = expected.kind ∧
      response.object.contentHash = expected.contentHash ∧
      response.object.encryption = self.encryption ∧ response.object.kmsKeyId = self.kmsKeyId)
    .conflict "Artifact storage identity mismatch"
  validateRetentionResponse response expected.retention

/-- `_consume`. The stream ends after the announced length, which has been checked. -/
def consume (response : S3Response) (expected : Expected) : Call Body := do
  self.validateResponse response expected
  failUnless (response.object.checksum = sha256 response.object.body) .conflict
    "Artifact checksum mismatch"
  failUnless (expected.verifyContentHash → sha256 response.object.body = expected.contentHash)
    .conflict "Artifact content hash mismatch"
  return response.object.body

theorem consume_returns (response : S3Response) (expected : Expected) :
    (self.consume response expected).Returns := by
  simp [consume, validateResponse, validateRetentionResponse, Attempt.returns_bind]

/-- The envelope that `_publish_manifest` stores. -/
def envelope (requested : ArtifactManifest) : StoredArtifactManifestEnvelope :=
  { objectKey := .object requested.contentHash
    checksumSha256 := requested.contentHash
    encryption := self.encryption
    kmsKeyId := self.kmsKeyId
    retention := self.retentionFor requested
    manifest := requested }

def parseEnvelope (payload : Body) (contentHash : Sha256) :
    Call StoredArtifactManifestEnvelope :=
  match payload with
  | .content _ => fail .conflict "Artifact manifest is corrupt"
  | .json envelope => do
      failUnless envelope.Valid .conflict "Artifact manifest is corrupt"
      failUnless (envelope.manifest.contentHash = contentHash ∧
          envelope.objectKey = .object contentHash ∧ envelope.encryption = self.encryption ∧
          envelope.kmsKeyId = self.kmsKeyId ∧ envelope.manifest.sizeBytes ≤ self.maxSizeBytes ∧
          envelope.retention = self.retentionFor envelope.manifest)
        .conflict "Artifact manifest identity mismatch"
      return envelope

/-- What `_read_object` compares an object with. -/
def expectedObject (manifest : ArtifactManifest) : Expected :=
  { kind := .object
    contentHash := manifest.contentHash
    contentType := manifest.metadata.mediaType
    maximum := self.maxSizeBytes
    exactSize := some manifest.sizeBytes
    verifyContentHash := true
    retention := self.retentionFor manifest }

/-- What `_read_envelope` compares a manifest with. -/
def expectedEnvelope (contentHash : Sha256) : Expected :=
  { kind := .manifest
    contentHash
    contentType := manifestMediaType
    maximum := maxManifestSizeBytes
    exactSize := none
    verifyContentHash := false
    retention := none }

/-- The checks of `_read_envelope` after the request. -/
def openEnvelope (contentHash : Sha256) (response : S3Response) :
    Call StoredArtifactManifestEnvelope := do
  let payload ← self.consume response (expectedEnvelope contentHash)
  let parsed ← self.parseEnvelope payload contentHash
  validateRetentionResponse response parsed.retention
  return parsed

/-! ## Calls -/

def get (key : S3Key) : S3Call S3Response :=
  Program.request (.getObject key) fun
    | .ok response => .success response
    | .error .notFound => fail .notFound "Artifact was not finalized"
    | .error _ => fail .internalError "Artifact storage read failed"

def put (key : S3Key) (body : Body) (contentType : String) (kind : StoredKind)
    (contentHash : Sha256) (retention : Option Retention) : S3Call PutOutcome :=
  Program.request (.putObject key
      { body, contentType, kind, contentHash
        checksum := sha256 body
        encryption := self.encryption
        kmsKeyId := self.kmsKeyId } retention) fun
    | .ok () => .success .created
    | .error .preconditionFailed => .success .exists_
    | .error _ => fail .internalError "Artifact storage write failed"

def readEnvelope (contentHash : Sha256) : S3Call StoredArtifactManifestEnvelope := do
  let response ← get (.manifest contentHash)
  ofAttempt (self.openEnvelope contentHash response)

def readObject (manifest : ArtifactManifest) : S3Call Body := do
  let response ← mapFailure (fun error =>
      if error.code = .notFound then ⟨.conflict, "Finalized artifact object is missing", []⟩
      else error)
    (get (.object manifest.contentHash))
  ofAttempt (self.consume response (self.expectedObject manifest))

def ensureObject (payload : List UInt8) (manifest : ArtifactManifest) : S3Call Unit := do
  let _ ← self.put (.object manifest.contentHash) (.content payload) manifest.metadata.mediaType
    .object manifest.contentHash (self.retentionFor manifest)
  let _ ← self.readObject manifest
  return ()

def reconcile (requested : ArtifactManifest) (existing : StoredArtifactManifestEnvelope) :
    S3Call ArtifactManifest := do
  ofAttempt <| failUnless (existing.manifest.metadata = requested.metadata) .conflict
    "Artifact metadata conflicts with finalized manifest"
  let _ ← self.readObject existing.manifest
  return existing.manifest

def publishManifest (requested : ArtifactManifest) : S3Call ArtifactManifest := do
  ofAttempt <| failUnless (jsonSize (self.envelope requested) ≤ maxManifestSizeBytes) .invalidInput
    "Artifact manifest exceeds size limit"
  let _ ← self.put (.manifest requested.contentHash) (.json (self.envelope requested))
    manifestMediaType .manifest requested.contentHash (self.retentionFor requested)
  let published ← self.readEnvelope requested.contentHash
  self.reconcile requested published

def finalize (content : List UInt8) (metadata : ArtifactMetadata) (finalizedAt : UTCDateTime) :
    S3Call ArtifactManifest := do
  let requested ← ofAttempt (prepareManifest content metadata finalizedAt self.maxSizeBytes)
  match ← observe (self.readEnvelope requested.contentHash) with
  | .success existing => self.reconcile requested existing
  | .raised error => ofAttempt (.raised error)
  | .failure error =>
      if error.code ≠ .notFound then ofAttempt (.failure error)
      else do
        self.ensureObject content requested
        self.publishManifest requested

def read (contentHash : Sha256) : S3Call Body := do
  let envelope ← self.readEnvelope contentHash
  self.readObject envelope.manifest

end S3ArtifactStore

end

/-! ## Requests among others -/

abbrev S3System (ι : Type) (α : ι → Type) := System S3Request S3Answer S3Bucket ι α

abbrev S3Event (ι : Type) := Event ι S3Choice ℕ

def S3System.run {ι : Type} {α : ι → Type} [DecidableEq ι] (S : S3System ι α)
    (events : List (S3Event ι)) : S3System ι α :=
  Run.run (System.step S3Bucket.serve (fun choice => choice = .answered) S3Bucket.wait) S events

/-- What callers of the service rely on, keep and guarantee. -/
structure S3Discipline where
  rely : Option S3Request → S3Bucket → S3Bucket → Prop
  invariant : S3Bucket → Prop
  guard : S3Request → S3Bucket → Prop
  rely_refl : ∀ r s, rely r s s
  rely_trans : ∀ r s t u, rely r s t → rely r t u → rely r s u

def S3Discipline.protocol (D : S3Discipline) : Protocol S3Request S3Answer S3Bucket S3Choice :=
  { D with
    serve := S3Bucket.serve
    answers := fun choice => choice = .answered }

section

variable {D : S3Discipline} {α : Type} {post : Bool → α → S3Bucket → Prop} {flag : Bool}
  {s : S3Bucket}

/-- One request: its true answer, or one that says nothing about the bucket. -/
theorem request_safe {r : S3Request} {β : Type} {read : S3Answer r → Call β}
    {post : Bool → Call β → S3Bucket → Prop}
    (hguard : ∀ t, D.rely (some r) s t → D.invariant t → D.guard r t)
    (hanswered : ∀ t, D.rely (some r) s t → D.invariant t → D.invariant (t.perform r).2 →
      ∀ u, D.rely none (t.perform r).2 u → post flag (read (t.perform r).1) u)
    (hother : ∀ t, D.rely (some r) s t → D.invariant t → ∀ u, post false (read (.error .other)) u) :
    Safe D.protocol post flag (Program.request r read) s := by
  intro t hrely hinvariant
  refine ⟨hguard t hrely hinvariant, fun choice hserved u hu => ?_⟩
  cases choice with
  | answered =>
      simpa [S3Discipline.protocol, S3Bucket.serve] using
        hanswered t hrely hinvariant hserved u hu
  | refused => simpa [S3Discipline.protocol, S3Bucket.serve] using hother t hrely hinvariant u
  | lost => simpa [S3Discipline.protocol, S3Bucket.serve] using hother t hrely hinvariant u

theorem ofAttempt_safe {β : Type} {x : Call β} {post : Bool → Call β → S3Bucket → Prop}
    (h : ∀ u, D.rely none s u → post flag x u) : Safe D.protocol post flag (ofAttempt x) s := h

end

end StonksPaper.Artifacts
