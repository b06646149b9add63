import RequestsNative.Lib.Machine
import RequestsNative.Lib.Tally

/-!
# The facade registry

`_rust_public.py` keeps which facades have a native reference. Threads open and close accesses and transitions of an
owner, and register it: a registration reserves the owner, asks the native side for a reference without holding the
lock, and publishes the reference only if nothing has disturbed it. This is the registry for one adapter in one process;
a step is one section under the lock or one native call, and the threads take them in any order. A scope that is open
and a registration that is under way keep the local variables of their functions; they are named by numbers.
-/

namespace RequestsNative.Python

open RequestsNative.Lib

/-- `_FacadeEntry`. -/
structure FacadeEntry where
  reference : Nat
  generation : Nat
  poolGeneration : Nat
  deriving DecidableEq, Repr

/-- `_OwnerRegistrationReservation`; the token is the number of the registration. -/
structure OwnerRegistrationReservation where
  token : Nat
  epoch : Nat
  threadId : Nat
  accessDepth : Nat
  deriving DecidableEq, Repr

/-- An open `with` block of `owner_access` or `owner_transition`. -/
structure OwnerScope where
  id : Nat
  threadId : Nat
  deriving DecidableEq, Repr

/-- Where `_register_adapter_reference` stands. -/
inductive RegistrationPoint
  /-- Before `_begin_adapter_registration`. -/
  | entering
  /-- Before `_adapter_register_trial`. -/
  | registering (reservation : OwnerRegistrationReservation)
  /-- No reference was created: before `_adapter_reference_trial`. -/
  | looking (reservation : OwnerRegistrationReservation)
  /-- Before the section that publishes. -/
  | referenced (reservation : OwnerRegistrationReservation) (reference : Nat)
  /-- Before `_drop_adapter_reference`. -/
  | dropping (reservation : OwnerRegistrationReservation) (reference : Nat)
  /-- Before `_clear_adapter_registration`. -/
  | clearing (reservation : OwnerRegistrationReservation)
  deriving DecidableEq, Repr

structure Registration where
  threadId : Nat
  generation : Nat
  poolGeneration : Option Nat
  point : RegistrationPoint := .entering
  deriving DecidableEq, Repr

inductive RegisterAnswer
  | raised | refused | admitted
  deriving DecidableEq, Repr

inductive ReferenceAnswer
  | raised | missing | answered
  deriving DecidableEq, Repr

inductive FacadeEvent
  | accessOpened (scope : OwnerScope) (allowed : Bool)
  | accessClosed (scope : OwnerScope)
  | transitionOpened (scope : OwnerScope) (first : Bool)
  | transitionClosed (scope : OwnerScope) (quiescent : Bool)
  /-- A scope that is closed is not in its table. -/
  | lost (scope : OwnerScope)
  | admitted (entry : FacadeEntry)
  | admissionRefused
  | began (registration : Nat)
  | refused (registration : Nat)
  | referenced (registration reference : Nat)
  | published (registration reference : Nat)
  | dropped (registration reference : Nat)
  /-- A registration returns or raises, with the tables it leaves. -/
  | finished (registration : Nat) (registry : Option FacadeEntry) (reserved : Option OwnerRegistrationReservation)
  deriving DecidableEq, Repr

structure Facade where
  registry : Option FacadeEntry := none
  ownerTransitions : Tally Nat := ∅
  ownerAccesses : Tally Nat := ∅
  ownerRegistration : Option OwnerRegistrationReservation := none
  ownerActivityEpoch : Option Nat := none
  generations : Nat := 1
  activityEpochs : Nat := 1
  /-- The reference of the native table. -/
  native : Option Nat := none
  references : Nat := 0
  openAccesses : List OwnerScope := []
  openTransitions : List OwnerScope := []
  registrations : AList fun _ : Nat => Registration := ∅
  names : Nat := 0

/-- The steps of `_register_adapter_reference`. -/
inductive RegistrationOp
  | beginAdapterRegistration
  /-- `_adapter_register_trial`; without the function the answer is a refusal. -/
  | adapterRegisterTrial (answer : RegisterAnswer)
  /-- `_adapter_reference_trial`; without the function the reference is missing. -/
  | adapterReferenceTrial (answer : ReferenceAnswer)
  | publish
  /-- `_drop_adapter_reference`, with whether it raises. -/
  | dropAdapterReference (raises : Bool)
  | clearAdapterRegistration
  deriving DecidableEq, Repr

inductive FacadeOp
  | openAccess (threadId : Nat)
  | closeAccess (scope : OwnerScope)
  | openTransition (threadId : Nat)
  | closeTransition (scope : OwnerScope)
  | registerAdapter (threadId : Nat)
  | admitOwner (threadId : Nat) (rotate : Bool)
  | registration (name : Nat) (op : RegistrationOp)
  | closeOwner
  | closeReference (reference : Nat)
  /-- `_adapter_drop_reference_trial`, as `_detach_rust_adapter_trial` calls it. -/
  | detach (reference : Nat)
  deriving DecidableEq, Repr

namespace Facade

/-- `_OWNER_ACTIVITY_EPOCHS[key] = next(_ACTIVITY_EPOCHS)`. -/
def touch (s : Facade) : Facade :=
  { s with ownerActivityEpoch := some s.activityEpochs, activityEpochs := s.activityEpochs + 1 }

def touchIfReserved (s : Facade) : Facade := if s.ownerRegistration.isSome then s.touch else s

/-- `_next_generation`. -/
def nextGeneration (processId : Nat) (s : Facade) : Nat × Facade :=
  (processId <<< 32 ||| s.generations, { s with generations := s.generations + 1 })

/-- `owner_access`, up to its `yield`. -/
def openAccess (s : Facade) (threadId : Nat) : List FacadeEvent × Facade :=
  let allowed := s.ownerTransitions.keys.isEmpty && s.ownerRegistration.isNone
  let scope := ⟨s.names, threadId⟩
  let s := s.touchIfReserved
  ([.accessOpened scope allowed],
    { s with
      ownerAccesses := s.ownerAccesses.increment threadId
      openAccesses := scope :: s.openAccesses
      names := s.names + 1 })

def closeAccess (s : Facade) (scope : OwnerScope) : List FacadeEvent × Facade :=
  let s := { s with openAccesses := s.openAccesses.erase scope }
  match s.ownerAccesses.lookup scope.threadId with
  | none => ([.lost scope], s)
  | some _ => ([.accessClosed scope], { s with ownerAccesses := s.ownerAccesses.decrement scope.threadId })

/-- `owner_transition`, up to its `yield`. -/
def openTransition (s : Facade) (threadId : Nat) : List FacadeEvent × Facade :=
  let first := s.ownerTransitions.keys.isEmpty
  let scope := ⟨s.names, threadId⟩
  let s := s.touchIfReserved
  ([.transitionOpened scope first],
    { s with
      ownerTransitions := s.ownerTransitions.increment threadId
      openTransitions := scope :: s.openTransitions
      names := s.names + 1 })

def closeTransition (s : Facade) (scope : OwnerScope) : List FacadeEvent × Facade :=
  let s := { s with openTransitions := s.openTransitions.erase scope }
  match s.ownerTransitions.lookup scope.threadId with
  | none => ([.lost scope], s)
  | some _ =>
      let s := { s with ownerTransitions := s.ownerTransitions.decrement scope.threadId }
      ([.transitionClosed scope (s.ownerTransitions.keys.isEmpty && s.ownerAccesses.keys.isEmpty)], s)

def enter (s : Facade) (threadId generation : Nat) (poolGeneration : Option Nat) : Facade :=
  { s with registrations := s.registrations.insert s.names { threadId, generation, poolGeneration }, names := s.names + 1 }

def registerAdapter (processId : Nat) (s : Facade) (threadId : Nat) : Facade :=
  let (generation, s) := s.nextGeneration processId
  s.enter threadId generation none

/-- The section of `_admit`. -/
def admitOwner (processId : Nat) (s : Facade) (threadId : Nat) (rotate : Bool) : List FacadeEvent × Facade :=
  if s.ownerRegistration.isSome then ([.admissionRefused], s.touch)
  else
    match rotate, s.registry with
    | false, some current => ([.admitted current], s)
    | _, _ =>
        let (generation, s) := s.nextGeneration processId
        let (poolGeneration, s) := s.nextGeneration processId
        ([], s.enter threadId generation (some poolGeneration))

def goTo (s : Facade) (name : Nat) (registration : Registration) (point : RegistrationPoint) : Facade :=
  { s with registrations := s.registrations.insert name { registration with point } }

/-- The registration is over. -/
def finish (s : Facade) (name : Nat) : List FacadeEvent × Facade :=
  ([.finished name s.registry s.ownerRegistration], { s with registrations := s.registrations.erase name })

def refuse (s : Facade) (name : Nat) : List FacadeEvent × Facade :=
  let (events, s) := s.finish name
  (.refused name :: events, s)

def beginAdapterRegistration (s : Facade) (name : Nat) (registration : Registration) : List FacadeEvent × Facade :=
  if s.ownerRegistration.isSome then s.touch.refuse name
  else if !s.ownerTransitions.keys.isEmpty then s.refuse name
  else if s.ownerAccesses.keys.any (· != registration.threadId) then s.refuse name
  else
    let accessDepth := s.ownerAccesses.get registration.threadId
    let epoch := s.activityEpochs
    let reservation := ⟨name, epoch, registration.threadId, accessDepth⟩
    ([.began name],
      { s.touch with ownerRegistration := some reservation }.goTo name registration (.registering reservation))

/-- The native table keeps a reference to the adapter if it has one, and else makes one. -/
def adapterRegisterTrial (s : Facade) (name : Nat) (registration : Registration)
    (reservation : OwnerRegistrationReservation) (answer : RegisterAnswer) : List FacadeEvent × Facade :=
  match answer, s.native with
  | .raised, _ | .refused, _ => ([], s.goTo name registration (.clearing reservation))
  | .admitted, some _ => ([], s.goTo name registration (.looking reservation))
  | .admitted, none =>
      ([.referenced name s.references],
        { s with native := some s.references, references := s.references + 1 }.goTo name registration
          (.referenced reservation s.references))

def adapterReferenceTrial (s : Facade) (name : Nat) (registration : Registration)
    (reservation : OwnerRegistrationReservation) (answer : ReferenceAnswer) : List FacadeEvent × Facade :=
  match answer, s.native with
  | .answered, some reference =>
      ([.referenced name reference], s.goTo name registration (.referenced reservation reference))
  | _, _ => ([], s.goTo name registration (.clearing reservation))

/-- Nothing has disturbed the registration. -/
def isValid (s : Facade) (reservation : OwnerRegistrationReservation) : Bool :=
  let baselineAccesses := s.ownerAccesses.get reservation.threadId == reservation.accessDepth &&
    s.ownerAccesses.keys.length == (if reservation.accessDepth = 0 then 0 else 1)
  s.ownerRegistration == some reservation && s.ownerActivityEpoch == some reservation.epoch &&
    s.ownerTransitions.keys.isEmpty && baselineAccesses

def forget (s : Facade) (reference : Nat) : Facade :=
  if s.registry.any (·.reference == reference) then { s with registry := none } else s

/-- The section that publishes the reference, or takes it back. -/
def publish (s : Facade) (name : Nat) (registration : Registration) (reservation : OwnerRegistrationReservation)
    (reference : Nat) : List FacadeEvent × Facade :=
  if s.isValid reservation then
    let registry :=
      match registration.poolGeneration with
      | none => s.registry
      | some poolGeneration => some ⟨reference, registration.generation, poolGeneration⟩
    let (events, s) := { s with registry, ownerRegistration := none, ownerActivityEpoch := none }.finish name
    (.published name reference :: events, s)
  else ([], (s.forget reference).goTo name registration (.dropping reservation reference))

/-- What is raised here goes to the caller, past the clearing. -/
def dropAdapterReference (s : Facade) (name : Nat) (registration : Registration)
    (reservation : OwnerRegistrationReservation) (reference : Nat) (raises : Bool) : List FacadeEvent × Facade :=
  if raises then s.finish name
  else
    ([.dropped name reference],
      { s with native := if s.native = some reference then none else s.native }.goTo name registration
        (.clearing reservation))

def clearAdapterRegistration (s : Facade) (name : Nat) (reservation : OwnerRegistrationReservation) :
    List FacadeEvent × Facade :=
  (if s.ownerRegistration = some reservation then { s with ownerRegistration := none, ownerActivityEpoch := none }
    else s).finish name

def closeOwner (s : Facade) : Facade := { s with registry := none }

variable (processId : Nat)

/-- One step of a registration. -/
def registrationStep (s : Facade) (name : Nat) (registration : Registration) :
    RegistrationOp → Option (List FacadeEvent × Facade)
  | .beginAdapterRegistration =>
      match registration.point with
      | .entering => some (s.beginAdapterRegistration name registration)
      | _ => none
  | .adapterRegisterTrial answer =>
      match registration.point with
      | .registering reservation => some (s.adapterRegisterTrial name registration reservation answer)
      | _ => none
  | .adapterReferenceTrial answer =>
      match registration.point with
      | .looking reservation => some (s.adapterReferenceTrial name registration reservation answer)
      | _ => none
  | .publish =>
      match registration.point with
      | .referenced reservation reference => some (s.publish name registration reservation reference)
      | _ => none
  | .dropAdapterReference raises =>
      match registration.point with
      | .dropping reservation reference =>
          some (s.dropAdapterReference name registration reservation reference raises)
      | _ => none
  | .clearAdapterRegistration =>
      match registration.point with
      | .clearing reservation => some (s.clearAdapterRegistration name reservation)
      | _ => none

def step (s : Facade) : FacadeOp → Option (List FacadeEvent × Facade)
  | .openAccess threadId => some (s.openAccess threadId)
  | .closeAccess scope => if scope ∈ s.openAccesses then some (s.closeAccess scope) else none
  | .openTransition threadId => some (s.openTransition threadId)
  | .closeTransition scope => if scope ∈ s.openTransitions then some (s.closeTransition scope) else none
  | .registerAdapter threadId => some ([], s.registerAdapter processId threadId)
  | .admitOwner threadId rotate => some (s.admitOwner processId threadId rotate)
  | .registration name op =>
      (s.registrations.lookup name).bind fun registration => s.registrationStep name registration op
  | .closeOwner => some ([], s.closeOwner)
  | .closeReference reference => some ([], s.forget reference)
  | .detach reference => some ([], { s with native := if s.native = some reference then none else s.native })

def machine : Machine Facade FacadeOp (List FacadeEvent) where
  step := step processId

end Facade

end RequestsNative.Python
