import StonksPaper.Base.Program
import StonksPaper.Domain.Common

/-!
# The versioned bucket

What the artifact adapters ask of an S3-compatible service, and what it does. Each request takes
effect at once. Keys keep their versions, the newest first; a version without an object is a delete
marker. A request may be answered, be refused, or take effect and lose its answer.
-/

namespace StonksPaper.Artifacts

/-! ## What is stored -/

inductive Sensitivity where
  | public_
  | internal
  | restricted
deriving DecidableEq

inductive ArtifactRetentionMode where
  | governance
  | compliance
deriving DecidableEq

inductive ArtifactEncryption where
  | none
  | aes256
  | kms
deriving DecidableEq

/-- `retention_mode` and `retain_until`, which are present together. -/
abbrev Retention := ArtifactRetentionMode × UTCDateTime

structure ArtifactMetadata where
  mediaType : String
  licenseTag : String
  sensitivity : Sensitivity
  source : String
  attributes : List (String × String)
deriving DecidableEq

/-- The storage URI repeats the content hash. -/
structure ArtifactManifest where
  contentHash : Sha256
  sizeBytes : ℕ
  metadata : ArtifactMetadata
  finalizedAt : UTCDateTime
deriving DecidableEq

/-- `{prefix}/objects/{h[:2]}/{h}` and `{prefix}/manifests/{h[:2]}/{h}.json`: no two of them are the
same, and none of them begins another. -/
inductive S3Key where
  | object (contentHash : Sha256)
  | manifest (contentHash : Sha256)
deriving DecidableEq

structure StoredArtifactManifestEnvelope where
  objectKey : S3Key
  checksumSha256 : Sha256
  encryption : ArtifactEncryption
  kmsKeyId : Option String
  retention : Option Retention
  manifest : ArtifactManifest
deriving DecidableEq

/-- The bytes of a version: an artifact's own, or the canonical JSON of an envelope, which the
parser reads back as that envelope. -/
inductive Body where
  | content (bytes : List UInt8)
  | json (envelope : StoredArtifactManifestEnvelope)
deriving DecidableEq

/-- SHA-256 of a body, and the length of an envelope's canonical JSON. -/
class ArtifactEncoding where
  sha256 : Body → Sha256
  jsonSize : StoredArtifactManifestEnvelope → ℕ

export ArtifactEncoding (sha256 jsonSize)

def Body.size [ArtifactEncoding] : Body → ℕ
  | content bytes => bytes.length
  | json envelope => jsonSize envelope

/-- `stonks-kind`. -/
inductive StoredKind where
  | object
  | manifest
deriving DecidableEq

/-- An object as it was put, without its lock. -/
structure StoredObject where
  body : Body
  contentType : String
  kind : StoredKind
  contentHash : Sha256
  checksum : Sha256
  encryption : ArtifactEncryption
  kmsKeyId : Option String
deriving DecidableEq

structure S3Version where
  key : S3Key
  versionId : ℕ
  modifiedAt : UTCDateTime
  object : Option StoredObject
  retention : Option Retention
  legalHold : Bool
deriving DecidableEq

structure S3Bucket where
  versions : List S3Version
  nextId : ℕ
  clock : UTCDateTime
deriving DecidableEq

/-! ## Requests -/

/-- The prefix of a listing: `{prefix}/objects/`, or a whole key. -/
inductive S3Prefix where
  | objects
  | exactly (key : S3Key)
deriving DecidableEq

def S3Prefix.Matches : S3Prefix → S3Key → Prop
  | objects, .object _ => True
  | objects, .manifest _ => False
  | exactly key, other => other = key

instance S3Prefix.decidableMatches : (p : S3Prefix) → (key : S3Key) → Decidable (p.Matches key)
  | .objects, .object _ => inferInstanceAs (Decidable True)
  | .objects, .manifest _ => inferInstanceAs (Decidable False)
  | .exactly key, other => inferInstanceAs (Decidable (other = key))

inductive S3Request where
  | putObject (key : S3Key) (object : StoredObject) (retention : Option Retention)
  | getObject (key : S3Key)
  | listObjectVersions (under : S3Prefix) (after : Option (S3Key × ℕ)) (maxKeys : ℕ)
  | getObjectRetention (key : S3Key) (versionId : ℕ)
  | putObjectRetention (key : S3Key) (versionId : ℕ) (retention : Retention)
  | getObjectLegalHold (key : S3Key) (versionId : ℕ)
  | putObjectLegalHold (key : S3Key) (versionId : ℕ)
  | deleteObject (key : S3Key) (versionId : ℕ)
deriving DecidableEq

structure S3Response where
  object : StoredObject
  retention : Option Retention
deriving DecidableEq

/-- An entry of a listing. -/
structure ListedVersion where
  key : S3Key
  versionId : ℕ
  modifiedAt : UTCDateTime
  isLatest : Bool
  deleteMarker : Bool
deriving DecidableEq

structure S3Page where
  versions : List ListedVersion
  isTruncated : Bool

@[reducible] def S3Request.Payload : S3Request → Type
  | getObject _ => S3Response
  | listObjectVersions .. => S3Page
  | getObjectRetention .. => Option Retention
  | getObjectLegalHold .. => Bool
  | _ => Unit

/-- What the client raises, as far as its callers tell it apart. -/
inductive S3ClientError where
  | preconditionFailed
  | notFound
  | other
deriving DecidableEq

abbrev S3Answer (request : S3Request) := Except S3ClientError request.Payload

/-- How the environment treats a request. -/
inductive S3Choice where
  | answered
  | refused
  | lost
deriving DecidableEq

/-! ## Effects -/

/-- The requests that may change what a GET of the key returns, once it returns something. -/
def S3Request.Disturbs (key : S3Key) : S3Request → Prop
  | .deleteObject other _ => other = key
  | .putObjectRetention other _ _ => other = key
  | _ => False

namespace S3Bucket

variable (b : S3Bucket)

def latest (key : S3Key) : Option S3Version := b.versions.find? (·.key = key)

def live (key : S3Key) : Option S3Response :=
  (b.latest key).bind fun v => v.object.map fun object => ⟨object, v.retention⟩

def version (key : S3Key) (versionId : ℕ) : Option S3Version :=
  b.versions.find? fun v => v.key = key ∧ v.versionId = versionId

def update (key : S3Key) (versionId : ℕ) (f : S3Version → S3Version) : S3Bucket :=
  { b with versions := b.versions.map fun v =>
      if v.key = key ∧ v.versionId = versionId then f v else v }

def put (key : S3Key) (object : StoredObject) (retention : Option Retention) : S3Bucket :=
  { b with
    versions := ⟨key, b.nextId, b.clock, some object, retention, false⟩ :: b.versions
    nextId := b.nextId + 1 }

def delete (key : S3Key) (versionId : ℕ) : S3Bucket :=
  { b with versions := b.versions.filter fun v => ¬ (v.key = key ∧ v.versionId = versionId) }

def listed (v : S3Version) : ListedVersion :=
  { key := v.key
    versionId := v.versionId
    modifiedAt := v.modifiedAt
    isLatest := b.latest v.key = some v
    deleteMarker := v.object = none }

/-- The entries after a marker. -/
def entriesAfter (under : S3Prefix) : Option (S3Key × ℕ) → List ListedVersion
  | none => (b.versions.filter fun v => under.Matches v.key).map b.listed
  | some marker =>
      (((b.versions.filter fun v => under.Matches v.key).map b.listed).dropWhile
        fun entry => (entry.key, entry.versionId) ≠ marker).tail

def page (under : S3Prefix) (after : Option (S3Key × ℕ)) (maxKeys : ℕ) : S3Page :=
  { versions := (b.entriesAfter under after).take maxKeys
    isTruncated := maxKeys < (b.entriesAfter under after).length }

end S3Bucket

def S3Version.retain (retention : Retention) (v : S3Version) : S3Version :=
  { v with retention := some retention }

def S3Version.hold (v : S3Version) : S3Version := { v with legalHold := true }

def S3Version.Locked (v : S3Version) (now : UTCDateTime) : Prop :=
  v.legalHold = true ∨ ∃ retention ∈ v.retention, now < retention.2

instance S3Version.decidableLocked (v : S3Version) (now : UTCDateTime) : Decidable (v.Locked now) :=
  inferInstanceAs (Decidable (_ ∨ _))

/-- The service does not shorten a lock in force, and does not weaken a compliance lock. -/
def S3Version.Extensible (v : S3Version) (now : UTCDateTime) (retention : Retention) : Prop :=
  ∀ current ∈ v.retention, now < current.2 →
    current.2 ≤ retention.2 ∧ (current.1 = .compliance → retention.1 = .compliance)

instance S3Version.decidableExtensible (v : S3Version) (now : UTCDateTime) (retention : Retention) :
    Decidable (v.Extensible now retention) :=
  inferInstanceAs (Decidable (∀ current ∈ v.retention, _))

namespace S3Bucket

/-- The answer to a request, and the bucket after it. -/
def perform (b : S3Bucket) : (request : S3Request) → S3Answer request × S3Bucket
  | .putObject key object retention =>
      if (b.live key).isSome then (.error .preconditionFailed, b)
      else (.ok (), b.put key object retention)
  | .getObject key => ((b.live key).elim (.error .notFound) .ok, b)
  | .listObjectVersions under after maxKeys => (.ok (b.page under after maxKeys), b)
  | .getObjectRetention key versionId =>
      ((b.version key versionId).elim (.error .notFound) fun v => .ok v.retention, b)
  | .putObjectRetention key versionId retention =>
      match b.version key versionId with
      | none => (.error .notFound, b)
      | some v =>
          if v.Extensible b.clock retention then
            (.ok (), b.update key versionId (S3Version.retain retention))
          else (.error .other, b)
  | .getObjectLegalHold key versionId =>
      ((b.version key versionId).elim (.error .notFound) fun v => .ok v.legalHold, b)
  | .putObjectLegalHold key versionId =>
      match b.version key versionId with
      | none => (.error .notFound, b)
      | some _ => (.ok (), b.update key versionId S3Version.hold)
  | .deleteObject key versionId =>
      match b.version key versionId with
      | none => (.ok (), b)
      | some v => if v.Locked b.clock then (.error .other, b) else (.ok (), b.delete key versionId)

def serve : S3Choice → S3Bucket → (request : S3Request) → S3Answer request × S3Bucket
  | .answered, b, request => b.perform request
  | .refused, b, _ => (.error .other, b)
  | .lost, b, request => (.error .other, (b.perform request).2)

def wait (elapsed : ℕ) (b : S3Bucket) : S3Bucket := { b with clock := b.clock + elapsed }

/-! ## Frames -/

variable {b : S3Bucket} {key other : S3Key} {object : StoredObject} {retention : Option Retention}
  {response : S3Response} {versionId : ℕ}

@[simp] theorem live_wait (elapsed : ℕ) : (wait elapsed b).live key = b.live key := rfl

theorem latest_put : (b.put key object retention).latest other =
    if key = other then some ⟨key, b.nextId, b.clock, some object, retention, false⟩
    else b.latest other := by
  simp only [put, latest, List.find?_cons]
  by_cases h : key = other <;> simp [h]

theorem live_put : (b.put key object retention).live other =
    if key = other then some ⟨object, retention⟩ else b.live other := by
  simp only [live, latest_put]
  by_cases h : key = other <;> simp [h]

theorem latest_delete_of_ne (h : other ≠ key) :
    (b.delete key versionId).latest other = b.latest other := by
  simp only [delete, latest, List.find?_filter]
  congr 1
  funext v
  by_cases hv : v.key = other
  · simp [hv, h]
  · simp [hv]

theorem live_delete_of_ne (h : other ≠ key) :
    (b.delete key versionId).live other = b.live other := by
  simp only [live, latest_delete_of_ne h]

theorem latest_update {f : S3Version → S3Version} (hf : ∀ v, (f v).key = v.key) :
    (b.update key versionId f).latest other =
      (b.latest other).map fun v => if v.key = key ∧ v.versionId = versionId then f v else v := by
  simp only [update, latest, List.find?_map]
  congr 2
  funext v
  by_cases hv : v.key = key ∧ v.versionId = versionId <;> simp [hv, hf]

/-- Where an update of versions leaves object and retention, a GET sees the same. -/
theorem live_update {f : S3Version → S3Version} (hkey : ∀ v, (f v).key = v.key)
    (hobject : ∀ v, (f v).object = v.object)
    (hretention : key = other → ∀ v, (f v).retention = v.retention) :
    (b.update key versionId f).live other = b.live other := by
  simp only [live, latest_update hkey]
  cases hlatest : b.latest other with
  | none => rfl
  | some v =>
      have hv : v.key = other := by simpa using List.find?_some hlatest
      simp only [Option.map_some, Option.bind_some]
      split
      · rename_i hselected
        rw [hobject, hretention (hselected.1.symm.trans hv)]
      · rfl

theorem perform_get_of_live (h : b.live key = some response) :
    b.perform (.getObject key) = (.ok response, b) := by
  simp only [perform, h, Option.elim_some]

theorem perform_get_of_free (h : b.live key = none) :
    b.perform (.getObject key) = (.error .notFound, b) := by
  simp only [perform, h, Option.elim_none]

theorem perform_put_of_free (h : b.live key = none) :
    b.perform (.putObject key object retention) = (.ok (), b.put key object retention) := by
  simp only [perform, h, Option.isSome_none, Bool.false_eq_true, if_false]

theorem perform_put_of_taken (h : b.live key = some response) :
    b.perform (.putObject key object retention) = (.error .preconditionFailed, b) := by
  simp only [perform, h, Option.isSome_some, if_true]

/-- No other request changes it. -/
theorem live_perform {request : S3Request} (hrequest : ¬ request.Disturbs key)
    (h : b.live key = some response) : (b.perform request).2.live key = some response := by
  cases request with
  | putObject other object retention =>
      by_cases hother : other = key
      · subst hother
        rw [perform_put_of_taken h]
        exact h
      · cases hfree : b.live other with
        | none =>
            rw [perform_put_of_free hfree]
            simpa [live_put, hother] using h
        | some taken =>
            rw [perform_put_of_taken hfree]
            exact h
  | getObject other => exact h
  | listObjectVersions under after maxKeys => exact h
  | getObjectRetention other versionId => exact h
  | putObjectRetention other versionId retention =>
      have hother : ¬ other = key := hrequest
      simp only [perform]
      split
      · exact h
      · split
        · exact (live_update (f := S3Version.retain retention) (fun _ => rfl) (fun _ => rfl)
            fun heq => absurd heq hother).trans h
        · exact h
  | getObjectLegalHold other versionId => exact h
  | putObjectLegalHold other versionId =>
      simp only [perform]
      split
      · exact h
      · exact (live_update (f := S3Version.hold) (fun _ => rfl) (fun _ => rfl)
          fun _ _ => rfl).trans h
  | deleteObject other versionId =>
      have hother : ¬ other = key := hrequest
      simp only [perform]
      split
      · exact h
      · split
        · exact h
        · rw [live_delete_of_ne fun heq => hother heq.symm]
          exact h

theorem live_serve {request : S3Request} (choice : S3Choice) (hrequest : ¬ request.Disturbs key)
    (h : b.live key = some response) : (serve choice b request).2.live key = some response := by
  cases choice with
  | answered => exact live_perform hrequest h
  | refused => exact h
  | lost => exact live_perform hrequest h

end S3Bucket

end StonksPaper.Artifacts
