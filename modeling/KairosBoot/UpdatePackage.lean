import KairosBoot.SparseImage

/-! # Prepared update packages

The data of `update_plan.hpp`, `artifact_source.hpp` and `update_package_preflight.hpp` that the
super optimizer and the update executor work on.

Objects behind a `std::shared_ptr` are compared by identity in the source, so `Shared` carries
the address next to the object; a pointer that may be null is an `Option`. -/

namespace KairosBoot

/-- An object behind a shared pointer, with its identity. -/
structure Shared (α : Type) where
  address : ℕ
  object : α

/-! ### Plans -/

inductive UpdateManifestKind where
  | androidInfo | fastbootInfo
  deriving DecidableEq, Repr

structure UpdateSourceLocation where
  manifest : UpdateManifestKind := .androidInfo
  line : ℕ := 1
  column : ℕ := 1
  byteOffset : ℕ := 0
  deriving DecidableEq, Repr

inductive RequirementAction where
  | require | reject
  deriving DecidableEq, Repr

structure PlannedRequirement where
  action : RequirementAction := .require
  variableName : String
  product : Option String := none
  options : List String
  location : UpdateSourceLocation := {}
  deriving DecidableEq, Repr

inductive UpdateTaskKind where
  | flash | reboot | updateSuper | erase
  deriving DecidableEq, Repr

inductive PlannedSlot where
  | default | other
  deriving DecidableEq, Repr

inductive PlannedRebootTarget where
  | system | bootloader | recovery | fastboot
  deriving DecidableEq, Repr

structure PlannedUpdateTask where
  kind : UpdateTaskKind := .flash
  conditionalOnWipe : Bool := false
  location : UpdateSourceLocation := {}
  partition : String := ""
  artifact : String := ""
  slot : PlannedSlot := .default
  applyVbmeta : Bool := false
  excludeIfDynamic : Bool := false
  rebootTarget : PlannedRebootTarget := .system
  deriving DecidableEq, Repr

structure DeterministicUpdatePlan where
  requirements : List PlannedRequirement := []
  tasks : List PlannedUpdateTask := []
  fastbootInfoVersion : Option ℕ := none
  deriving DecidableEq, Repr

/-! ### Artifacts -/

inductive ArtifactSourceOrigin where
  | directFile | directoryEntry | zipEntry
  deriving DecidableEq, Repr

structure ResolvedArtifact where
  source : Option (Shared ImageSource)
  sha256 : Bytes
  origin : ArtifactSourceOrigin
  logicalName : String

/-- A flash artifact with the identity of its transfer source. -/
structure OwnedFlashArtifact where
  transferAddress : ℕ
  artifact : FlashArtifact

structure PreparedUpdateArtifact where
  name : String
  resolved : Option (Shared ResolvedArtifact)
  artifact : Option (Shared OwnedFlashArtifact)

structure PreparedSuperArtifact where
  resolved : Option (Shared ResolvedArtifact)
  artifact : Option (Shared OwnedFlashArtifact)
  wantsWipe : Bool := false

inductive UpdateSuperPreparationState where
  | notRequired | skippedNotFound | prepared
  deriving DecidableEq, Repr

structure PreparedUpdatePackage where
  plan : DeterministicUpdatePlan
  artifacts : List PreparedUpdateArtifact
  updateSuperState : UpdateSuperPreparationState
  preparedSuperArtifact : Option PreparedSuperArtifact
  requiresDeviceValidation : Bool

/-! ### Identities in use -/

def ResolvedArtifact.addresses (resolved : Shared ResolvedArtifact) : List ℕ :=
  resolved.address :: (resolved.object.source.map (·.address)).toList

def OwnedFlashArtifact.addresses (artifact : Shared OwnedFlashArtifact) : List ℕ :=
  [artifact.address, artifact.object.transferAddress]

def PreparedUpdateArtifact.addresses (artifact : PreparedUpdateArtifact) : List ℕ :=
  (artifact.resolved.toList.flatMap ResolvedArtifact.addresses) ++
    (artifact.artifact.toList.flatMap OwnedFlashArtifact.addresses)

def PreparedSuperArtifact.addresses (artifact : PreparedSuperArtifact) : List ℕ :=
  (artifact.resolved.toList.flatMap ResolvedArtifact.addresses) ++
    (artifact.artifact.toList.flatMap OwnedFlashArtifact.addresses)

/-- An address from which on no object of the package lives. -/
def PreparedUpdatePackage.freshAddress (prepared : PreparedUpdatePackage) : ℕ :=
  ((prepared.artifacts.flatMap PreparedUpdateArtifact.addresses) ++
    (prepared.preparedSuperArtifact.toList.flatMap PreparedSuperArtifact.addresses)).foldl max 0 + 1

end KairosBoot
