import RequestsNative.Python.FacadeRuns

/-!
# The facade registry publishes undisturbed registrations

Every step of the facade registry keeps the five facts, and every registration that is over leaves nothing behind, except
where the native reference cannot be dropped: there the reservation stays, and the owner can never be registered again.
-/

namespace RequestsNative.Python

open RequestsNative.Lib

variable {log events : List FacadeEvent} {s s' : Facade} {name : Nat} {registration : Registration}
  {reservation : OwnerRegistrationReservation}

/-- The native reference cannot be dropped. -/
def FacadeOp.dropRaises : FacadeOp → Bool
  | .registration _ (.dropAdapterReference true) => true
  | _ => false

/-- A step keeps the facts, and leaves something behind exactly if a drop raises. -/
structure FacadeKept (log : List FacadeEvent) (op : FacadeOp) (events : List FacadeEvent) (s' : Facade) : Prop where
  inv : FacadeInv (log ++ events) s'
  leaves : Throughout LeavesNothing (log ++ events) ↔ Throughout LeavesNothing log ∧ op.dropRaises = false

/-- A registration is over. -/
def FacadeEvent.isFinish : FacadeEvent → Bool
  | .finished _ _ _ => true
  | _ => false

theorem leaves_append {op : FacadeOp} (hop : op.dropRaises = false) (hevents : ∀ event ∈ events, event.isFinish = false) :
    Throughout LeavesNothing (log ++ events) ↔ Throughout LeavesNothing log ∧ op.dropRaises = false := by
  refine ⟨fun h => ⟨h.of_append, hop⟩, fun h => h.1.append fun event hevent before => ?_⟩
  have hfinish := hevents event hevent
  cases event with
  | finished => cases hfinish
  | _ => trivial

/-! ### Scopes -/

theorem touchIfReserved_calm (h : FacadeInv log s) : ∃ epoch epochs,
    s.touchIfReserved = { s with ownerActivityEpoch := epoch, activityEpochs := epochs } ∧
      s.activityEpochs ≤ epochs ∧ ∀ log', Calm log' s.ownerRegistration epoch := by
  rw [Facade.touchIfReserved]
  split
  · exact ⟨some s.activityEpochs, s.activityEpochs + 1, rfl, Nat.le_succ _, fun _ => h.reservations.calm⟩
  · next hreserved =>
      refine ⟨s.ownerActivityEpoch, s.activityEpochs, rfl, Nat.le_refl _, fun log' reservation hsome => ?_⟩
      rw [hsome] at hreserved
      exact absurd rfl hreserved

theorem facadeKept_openAccess (h : FacadeInv log s) {threadId : Nat} (heq : s.openAccess threadId = (events, s')) :
    FacadeKept log (.openAccess threadId) events s' := by
  obtain ⟨epoch, epochs, htouch, hepochs, hcalm⟩ := touchIfReserved_calm h
  unfold Facade.openAccess at heq
  simp only [htouch] at heq
  obtain ⟨rfl, rfl⟩ := Prod.mk.inj heq
  refine ⟨⟨h.scopes.openAccess _ _, h.reservations.mono (Nat.le_succ _) hepochs, hcalm _, ?_, h.owned.append, ?_⟩, ?_⟩
  · exact h.points.append (by simp [FacadeEvent.isReference]) (.inl rfl) (Nat.le_succ _)
  · exact h.sound.append (by simp [EventSound])
  · exact leaves_append rfl (by simp [FacadeEvent.isFinish])

theorem facadeKept_openTransition (h : FacadeInv log s) {threadId : Nat} (heq : s.openTransition threadId = (events, s')) :
    FacadeKept log (.openTransition threadId) events s' := by
  obtain ⟨epoch, epochs, htouch, hepochs, hcalm⟩ := touchIfReserved_calm h
  unfold Facade.openTransition at heq
  simp only [htouch] at heq
  obtain ⟨rfl, rfl⟩ := Prod.mk.inj heq
  refine ⟨⟨h.scopes.openTransition _ _, h.reservations.mono (Nat.le_succ _) hepochs, hcalm _, ?_, h.owned.append, ?_⟩, ?_⟩
  · exact h.points.append (by simp [FacadeEvent.isReference]) (.inl rfl) (Nat.le_succ _)
  · exact h.sound.append (by simp [EventSound])
  · exact leaves_append rfl (by simp [FacadeEvent.isFinish])

theorem facadeKept_closeAccess (h : FacadeInv log s) {scope : OwnerScope} (hscope : scope ∈ s.openAccesses)
    (heq : s.closeAccess scope = (events, s')) : FacadeKept log (.closeAccess scope) events s' := by
  have hlookup := h.scopes.accesses.lookup (List.mem_map_of_mem hscope)
  unfold Facade.closeAccess at heq
  simp only [hlookup] at heq
  obtain ⟨rfl, rfl⟩ := Prod.mk.inj heq
  refine ⟨⟨h.scopes.closeAccess hscope, h.reservations, h.calm.append (by simp [FacadeEvent.disturbs]), ?_, h.owned.append,
    ?_⟩, ?_⟩
  · exact h.points.append (by simp [FacadeEvent.isReference]) (.inl rfl) (Nat.le_refl _)
  · exact h.sound.append (by simp [EventSound])
  · exact leaves_append rfl (by simp [FacadeEvent.isFinish])

theorem facadeKept_closeTransition (h : FacadeInv log s) {scope : OwnerScope} (hscope : scope ∈ s.openTransitions)
    (heq : s.closeTransition scope = (events, s')) : FacadeKept log (.closeTransition scope) events s' := by
  have hlookup := h.scopes.transitions.lookup (List.mem_map_of_mem hscope)
  unfold Facade.closeTransition at heq
  simp only [hlookup] at heq
  obtain ⟨rfl, rfl⟩ := Prod.mk.inj heq
  refine ⟨⟨h.scopes.closeTransition hscope _, h.reservations, h.calm.append (by simp [FacadeEvent.disturbs]), ?_,
    h.owned.append, ?_⟩, ?_⟩
  · exact h.points.append (by simp [FacadeEvent.isReference]) (.inl rfl) (Nat.le_refl _)
  · refine Throughout.snoc_iff.mpr ⟨h.sound, ?_⟩
    have htransitions := (counts_erase h.scopes.transitions hscope).keys_eq_nil_iff
    have haccesses := h.scopes.accesses.keys_eq_nil_iff
    rw [EventSound, Bool.and_eq_true, List.isEmpty_iff, List.isEmpty_iff, htransitions, haccesses, List.map_eq_nil_iff,
      List.map_eq_nil_iff, ← h.scopes.openTransitions, ← h.scopes.openAccesses]
  · exact leaves_append rfl (by simp [FacadeEvent.isFinish])

/-! ### Steps without events -/

/-- The registry loses its entry, or the native table. -/
theorem FacadeKept.silent {op : FacadeOp} (hop : op.dropRaises = false) (h : FacadeInv log s') : FacadeKept log op [] s' :=
  ⟨(List.append_nil log).symm ▸ h, leaves_append hop nofun⟩

theorem Facade.forget_eq (s : Facade) (reference : Nat) : ∃ registry, s.forget reference = { s with registry } ∧
    (registry = s.registry ∨ registry = none) ∧ registry.map FacadeEntry.reference ≠ some reference := by
  unfold Facade.forget
  split
  · exact ⟨none, rfl, .inr rfl, nofun⟩
  · next hother =>
      refine ⟨s.registry, rfl, .inl rfl, fun hsame => hother ?_⟩
      obtain ⟨entry, hentry, rfl⟩ := Option.map_eq_some_iff.mp hsame
      simp [hentry]

theorem FacadeInv.unregister (h : FacadeInv log s) {registry : Option FacadeEntry}
    (hregistry : registry = s.registry ∨ registry = none) : FacadeInv log { s with registry } := by
  refine ⟨h.scopes, h.reservations, h.calm, ?_, h.owned, h.sound⟩
  have hpoints : Points (log ++ []) registry s.registrations s.names := h.points.append nofun hregistry (Nat.le_refl _)
  rwa [List.append_nil] at hpoints

theorem facadeKept_closeReference (h : FacadeInv log s) (reference : Nat) :
    FacadeKept log (.closeReference reference) [] (s.forget reference) := by
  obtain ⟨registry, heq, hregistry, -⟩ := s.forget_eq reference
  rw [heq]
  exact .silent rfl (h.unregister hregistry)

theorem facadeKept_closeOwner (h : FacadeInv log s) : FacadeKept log .closeOwner [] s.closeOwner :=
  .silent rfl (h.unregister (.inr rfl))

theorem FacadeInv.enter (h : FacadeInv log s) {threadId generation generations : Nat} {poolGeneration : Option Nat} :
    FacadeInv log (Facade.enter { s with generations } threadId generation poolGeneration) :=
  ⟨h.scopes, h.reservations.enter rfl, h.calm, h.points.enter rfl, h.owned.insert _ _, h.sound⟩

theorem FacadeInv.touch (h : FacadeInv log s) : FacadeInv log s.touch :=
  ⟨h.scopes, h.reservations.mono (Nat.le_refl _) (Nat.le_succ _), h.reservations.calm, h.points, h.owned, h.sound⟩

/-- An event that says nothing of a scope, a reference or the end of a registration. -/
theorem FacadeInv.snoc (h : FacadeInv log s) {event : FacadeEvent} (hscope : event.isScope = false)
    (hreference : event.isReference = false) (hcalm : Calm (log ++ [event]) s.ownerRegistration s.ownerActivityEpoch)
    (hsound : EventSound log event) : FacadeInv (log ++ [event]) s := by
  refine ⟨h.scopes.append ?_, h.reservations, hcalm, h.points.append ?_ (.inl rfl) (Nat.le_refl _), h.owned.append,
    Throughout.snoc_iff.mpr ⟨h.sound, hsound⟩⟩
  · exact List.forall_mem_singleton.mpr hscope
  · exact List.forall_mem_singleton.mpr hreference

theorem facadeKept_admitOwner (processId : Nat) (h : FacadeInv log s) {threadId : Nat} {rotate : Bool}
    (heq : s.admitOwner processId threadId rotate = (events, s')) : FacadeKept log (.admitOwner threadId rotate) events s' := by
  unfold Facade.admitOwner at heq
  split at heq
  · obtain ⟨rfl, rfl⟩ := Prod.mk.inj heq
    refine ⟨h.touch.snoc rfl rfl h.reservations.calm trivial, ?_⟩
    exact leaves_append rfl (List.forall_mem_singleton.mpr rfl)
  · split at heq
    · obtain ⟨rfl, rfl⟩ := Prod.mk.inj heq
      refine ⟨h.snoc rfl rfl (h.calm.append (List.forall_mem_singleton.mpr rfl)) trivial, ?_⟩
      exact leaves_append rfl (List.forall_mem_singleton.mpr rfl)
    · obtain ⟨rfl, rfl⟩ := Prod.mk.inj heq
      exact .silent rfl h.enter

theorem facadeKept_registerAdapter (processId : Nat) (h : FacadeInv log s) (threadId : Nat) :
    FacadeKept log (.registerAdapter threadId) [] (s.registerAdapter processId threadId) :=
  .silent rfl h.enter

theorem FacadeInv.setNative (h : FacadeInv log s) (native : Option Nat) (references : Nat) :
    FacadeInv log { s with native, references } :=
  ⟨h.scopes, h.reservations, h.calm, h.points, h.owned, h.sound⟩

theorem facadeKept_detach (h : FacadeInv log s) (reference : Nat) : FacadeKept log (.detach reference) []
    { s with native := if s.native = some reference then none else s.native } :=
  .silent rfl (h.setNative _ s.references)

/-! ### Registrations -/

/-- A registration goes on with its reservation. -/
theorem FacadeInv.goTo (h : FacadeInv log s) {point : RegistrationPoint}
    (hlookup : s.registrations.lookup name = some registration) (hold : registration.point.reservation = some reservation)
    (hnew : point.reservation = some reservation) (hpoint : PointSound log s.registry name point) :
    FacadeInv log (s.goTo name registration point) :=
  ⟨h.scopes, h.reservations.goTo hlookup hold hnew, h.calm, h.points.goTo hpoint, h.owned.insert _ _, h.sound⟩

/-- A registration learns of its reference. -/
theorem FacadeInv.refer (h : FacadeInv log s) (hlookup : s.registrations.lookup name = some registration)
    (hold : registration.point.reservation = some reservation)
    (hunreferenced : ∀ reference, .referenced name reference ∉ log) (reference : Nat) :
    FacadeInv (log ++ [.referenced name reference])
      (s.goTo name registration (.referenced reservation reference)) := by
  refine ⟨h.scopes.append (List.forall_mem_singleton.mpr rfl), h.reservations.goTo hlookup hold rfl,
    h.calm.append (List.forall_mem_singleton.mpr rfl), ?_, (h.owned.insert _ _).append,
    Throughout.snoc_iff.mpr ⟨h.sound, trivial⟩⟩
  exact h.points.refer (h.reservations.named name registration hlookup) hunreferenced reference

theorem leaves_finish {op : FacadeOp} {last : FacadeEvent} (hevents : ∀ event ∈ events, event.isFinish = false)
    (hlast : LeavesNothing (log ++ events) last ↔ op.dropRaises = false) :
    Throughout LeavesNothing (log ++ (events ++ [last])) ↔ Throughout LeavesNothing log ∧ op.dropRaises = false := by
  have hclose : FacadeOp.dropRaises .closeOwner = false := rfl
  rw [← List.append_assoc, Throughout.snoc_iff, hlast, leaves_append hclose hevents]
  exact and_congr_left' (and_iff_left hclose)

/-- A registration is over, and the reservation stays as it is. -/
theorem FacadeKept.finish {op : FacadeOp} (h : FacadeInv (log ++ events) s)
    (hevents : ∀ event ∈ events, event.isFinish = false)
    (hleaves : LeavesNothing (log ++ events) (.finished name s.registry s.ownerRegistration) ↔ op.dropRaises = false) :
    FacadeKept log op (events ++ (s.finish name).1) (s.finish name).2 := by
  refine ⟨?_, leaves_finish hevents hleaves⟩
  rw [← List.append_assoc]
  refine ⟨h.scopes.append (List.forall_mem_singleton.mpr rfl), h.reservations.erase name,
    h.calm.append (List.forall_mem_singleton.mpr rfl), ?_, h.owned.finish name _,
    Throughout.snoc_iff.mpr ⟨h.sound, trivial⟩⟩
  exact (h.points.erase name).append (List.forall_mem_singleton.mpr rfl) (.inl rfl) (Nat.le_refl _)

/-- A registration is over, and its reservation is removed. -/
theorem FacadeKept.release {op : FacadeOp} (h : FacadeInv (log ++ events) s)
    (hlookup : s.registrations.lookup name = some registration) (hold : registration.point.reservation = some reservation)
    {registry : Option FacadeEntry} (hevents : ∀ event ∈ events, event.isFinish = false)
    (hleaves : LeavesNothing (log ++ events) (.finished name registry none) ↔ op.dropRaises = false) :
    FacadeKept log op
      (events ++ (Facade.finish { s with registry, ownerRegistration := none, ownerActivityEpoch := none } name).1)
      (Facade.finish { s with registry, ownerRegistration := none, ownerActivityEpoch := none } name).2 := by
  refine ⟨?_, leaves_finish hevents hleaves⟩
  rw [← List.append_assoc]
  refine ⟨h.scopes.append (List.forall_mem_singleton.mpr rfl), h.reservations.release hlookup hold, nofun, ?_, nofun,
    Throughout.snoc_iff.mpr ⟨h.sound, trivial⟩⟩
  have hpoints : Points (log ++ events) registry (s.registrations.erase name) s.names :=
    h.points.release fun other registration' hother hne => h.reservations.only hlookup hold hother hne
  exact hpoints.append (List.forall_mem_singleton.mpr rfl) (.inl rfl) (Nat.le_refl _)

theorem facadeKept_refuse (h : FacadeInv log s) (hlookup : s.registrations.lookup name = some registration)
    (hpoint : registration.point = .entering)
    (hcalm : Calm (log ++ [.refused name]) s.ownerRegistration s.ownerActivityEpoch) :
    FacadeKept log (.registration name .beginAdapterRegistration) (s.refuse name).1 (s.refuse name).2 := by
  have hsnoc : FacadeInv (log ++ [.refused name]) s := h.snoc rfl rfl hcalm trivial
  refine FacadeKept.finish hsnoc (List.forall_mem_singleton.mpr rfl) (iff_of_true ⟨fun htoken => ?_, .inr ?_⟩ rfl)
  · obtain ⟨reservation, hreserved, rfl⟩ := Option.map_eq_some_iff.mp htoken
    exact h.reservations.begun reservation registration hreserved hlookup hpoint
  · intro reference hmem
    have hsound := hsnoc.points.sound name registration hlookup
    rw [hpoint] at hsound
    exact absurd hmem (hsound reference)

theorem FacadeInv.transitionsIn_eq_nil (h : FacadeInv log s) (hkeys : s.ownerTransitions.keys.isEmpty = true) :
    transitionsIn log = [] := by
  have hcounts := h.scopes.transitions.keys_eq_nil_iff.mp (List.isEmpty_iff.mp hkeys)
  rw [← h.scopes.openTransitions]
  exact List.map_eq_nil_iff.mp hcounts

theorem facadeKept_begin (h : FacadeInv log s) (hlookup : s.registrations.lookup name = some registration)
    (hpoint : registration.point = .entering) (heq : s.beginAdapterRegistration name registration = (events, s')) :
    FacadeKept log (.registration name .beginAdapterRegistration) events s' := by
  unfold Facade.beginAdapterRegistration at heq
  split at heq
  · have hkept := facadeKept_refuse h.touch hlookup hpoint h.reservations.calm
    rwa [heq] at hkept
  next hreserved =>
  have hnone : s.ownerRegistration = none := Option.not_isSome_iff_eq_none.mp hreserved
  have hcalm : Calm (log ++ [.refused name]) s.ownerRegistration s.ownerActivityEpoch := by
    rw [hnone]
    exact nofun
  split at heq
  · have hkept := facadeKept_refuse h hlookup hpoint hcalm
    rwa [heq] at hkept
  next htransitions =>
  split at heq
  · have hkept := facadeKept_refuse h hlookup hpoint hcalm
    rwa [heq] at hkept
  -- The owner is free, and the log from here on is that of the reservation.
  obtain ⟨rfl, rfl⟩ := Prod.mk.inj heq
  rw [Bool.not_eq_true, Bool.not_eq_false'] at htransitions
  have hsound := h.points.sound name registration hlookup
  rw [hpoint] at hsound
  have hsnoc : ∀ event ∈ [FacadeEvent.began name], event.isReference = false := List.forall_mem_singleton.mpr rfl
  refine ⟨⟨h.scopes.append (List.forall_mem_singleton.mpr rfl), ?_, ?_, ?_, ?_, ?_⟩,
    leaves_append rfl (List.forall_mem_singleton.mpr rfl)⟩
  · have hreservations := h.reservations
    rw [hnone] at hreservations
    exact hreservations.begin hlookup rfl rfl
  · intro reservation hreservation hepoch
    obtain rfl := Option.some.inj hreservation
    exact ⟨log, [], rfl, h.transitionsIn_eq_nil htransitions, nofun⟩
  · refine (h.points.append hsnoc (.inl rfl) (Nat.le_refl _)).goTo fun reference hmem => ?_
    exact hsound reference ((referenced_append hsnoc).mp hmem)
  · intro reservation hreservation
    obtain rfl := Option.some.inj hreservation
    exact .inl (AList.lookup_isSome.mpr ((AList.mem_insert _).mpr (.inl rfl)))
  · exact Throughout.snoc_iff.mpr ⟨h.sound, trivial⟩

theorem facadeKept_registerTrial (h : FacadeInv log s) (hlookup : s.registrations.lookup name = some registration)
    (hpoint : registration.point = .registering reservation) {answer : RegisterAnswer}
    (heq : s.adapterRegisterTrial name registration reservation answer = (events, s')) :
    FacadeKept log (.registration name (.adapterRegisterTrial answer)) events s' := by
  have hold : registration.point.reservation = some reservation := hpoint ▸ rfl
  have hsound : ∀ reference, .referenced name reference ∉ log := by
    have hsound := h.points.sound name registration hlookup
    rwa [hpoint] at hsound
  have hclearing : FacadeInv log (s.goTo name registration (.clearing reservation)) :=
    h.goTo hlookup hold rfl fun reference hmem => absurd hmem (hsound reference)
  unfold Facade.adapterRegisterTrial at heq
  split at heq
  · obtain ⟨rfl, rfl⟩ := Prod.mk.inj heq
    exact .silent rfl hclearing
  · obtain ⟨rfl, rfl⟩ := Prod.mk.inj heq
    exact .silent rfl hclearing
  · obtain ⟨rfl, rfl⟩ := Prod.mk.inj heq
    exact .silent rfl (h.goTo hlookup hold rfl hsound)
  · obtain ⟨rfl, rfl⟩ := Prod.mk.inj heq
    refine ⟨(h.setNative (some s.references) (s.references + 1)).refer hlookup hold hsound s.references, ?_⟩
    exact leaves_append rfl (List.forall_mem_singleton.mpr rfl)

theorem facadeKept_referenceTrial (h : FacadeInv log s) (hlookup : s.registrations.lookup name = some registration)
    (hpoint : registration.point = .looking reservation) {answer : ReferenceAnswer}
    (heq : s.adapterReferenceTrial name registration reservation answer = (events, s')) :
    FacadeKept log (.registration name (.adapterReferenceTrial answer)) events s' := by
  have hold : registration.point.reservation = some reservation := hpoint ▸ rfl
  have hsound : ∀ reference, .referenced name reference ∉ log := by
    have hsound := h.points.sound name registration hlookup
    rwa [hpoint] at hsound
  unfold Facade.adapterReferenceTrial at heq
  split at heq
  · obtain ⟨rfl, rfl⟩ := Prod.mk.inj heq
    exact ⟨h.refer hlookup hold hsound _, leaves_append rfl (List.forall_mem_singleton.mpr rfl)⟩
  · obtain ⟨rfl, rfl⟩ := Prod.mk.inj heq
    exact .silent rfl (h.goTo hlookup hold rfl fun reference hmem => absurd hmem (hsound reference))

theorem FacadeInv.undisturbed (h : FacadeInv log s) (hlookup : s.registrations.lookup name = some registration)
    (hold : registration.point.reservation = some reservation) (hvalid : s.isValid reservation = true) :
    Undisturbed log name ∧ transitionsIn log = [] := by
  simp only [Facade.isValid, Bool.and_eq_true, beq_iff_eq] at hvalid
  obtain ⟨⟨⟨hreserved, hepoch⟩, htransitions⟩, -⟩ := hvalid
  obtain ⟨-, rfl⟩ := h.reservations.held name registration reservation hlookup hold
  exact ⟨h.calm reservation hreserved hepoch, h.transitionsIn_eq_nil htransitions⟩

theorem facadeKept_publish (h : FacadeInv log s) (hlookup : s.registrations.lookup name = some registration) {reference : Nat}
    (hpoint : registration.point = .referenced reservation reference)
    (heq : s.publish name registration reservation reference = (events, s')) :
    FacadeKept log (.registration name .publish) events s' := by
  have hold : registration.point.reservation = some reservation := hpoint ▸ rfl
  unfold Facade.publish at heq
  split at heq
  · next hvalid =>
      have hsnoc : FacadeInv (log ++ [.published name reference]) s :=
        h.snoc rfl rfl (h.calm.append (List.forall_mem_singleton.mpr rfl)) (h.undisturbed hlookup hold hvalid)
      have hpublished : .published name reference ∈ log ++ [.published name reference] :=
        List.mem_append_right _ (List.mem_singleton_self _)
      obtain ⟨rfl, rfl⟩ := Prod.mk.inj heq
      exact FacadeKept.release hsnoc hlookup hold (List.forall_mem_singleton.mpr rfl)
        (iff_of_true ⟨nofun, .inl ⟨reference, hpublished⟩⟩ rfl)
  · have hsound := h.points.sound name registration hlookup
    rw [hpoint] at hsound
    obtain ⟨registry, hforget, hregistry, hgone⟩ := s.forget_eq reference
    obtain ⟨rfl, rfl⟩ := Prod.mk.inj heq
    rw [hforget]
    exact .silent rfl ((h.unregister hregistry).goTo hlookup hold rfl ⟨hsound, hgone⟩)

theorem facadeKept_drop (h : FacadeInv log s) (hlookup : s.registrations.lookup name = some registration) {reference : Nat}
    (hpoint : registration.point = .dropping reservation reference) {raises : Bool}
    (heq : s.dropAdapterReference name registration reservation reference raises = (events, s')) :
    FacadeKept log (.registration name (.dropAdapterReference raises)) events s' := by
  have hold : registration.point.reservation = some reservation := hpoint ▸ rfl
  obtain ⟨hreserved, htoken⟩ := h.reservations.held name registration reservation hlookup hold
  unfold Facade.dropAdapterReference at heq
  cases raises with
  | true =>
      -- The reservation is still in the table when the registration is over.
      have hleft : ¬LeavesNothing (log ++ []) (.finished name s.registry s.ownerRegistration) := by
        intro hleaves
        refine hleaves.1 ?_
        rw [hreserved, Option.map_some, htoken]
      have hkept : FacadeKept log (.registration name (.dropAdapterReference true)) ([] ++ (s.finish name).1)
          (s.finish name).2 :=
        FacadeKept.finish ((List.append_nil log).symm ▸ h) nofun (iff_of_false hleft Bool.noConfusion)
      rw [if_pos rfl] at heq
      rwa [heq] at hkept
  | false =>
      rw [if_neg Bool.false_ne_true] at heq
      obtain ⟨rfl, rfl⟩ := Prod.mk.inj heq
      have hsound := h.points.sound name registration hlookup
      rw [hpoint] at hsound
      have hsnoc : FacadeInv (log ++ [.dropped name reference]) s :=
        h.snoc rfl rfl (h.calm.append (List.forall_mem_singleton.mpr rfl)) trivial
      refine ⟨(hsnoc.setNative _ s.references).goTo hlookup hold rfl fun other hmem => ?_,
        leaves_append rfl (List.forall_mem_singleton.mpr rfl)⟩
      obtain rfl := hsound.1 other ((referenced_append (List.forall_mem_singleton.mpr rfl)).mp hmem)
      exact ⟨List.mem_append_right _ (List.mem_singleton_self _), hsound.2⟩

theorem facadeKept_clear (h : FacadeInv log s) (hlookup : s.registrations.lookup name = some registration)
    (hpoint : registration.point = .clearing reservation)
    (heq : s.clearAdapterRegistration name reservation = (events, s')) :
    FacadeKept log (.registration name .clearAdapterRegistration) events s' := by
  have hold : registration.point.reservation = some reservation := hpoint ▸ rfl
  obtain ⟨hreserved, -⟩ := h.reservations.held name registration reservation hlookup hold
  have hsound := h.points.sound name registration hlookup
  rw [hpoint] at hsound
  rw [Facade.clearAdapterRegistration, if_pos hreserved] at heq
  have hnil : FacadeInv (log ++ []) s := (List.append_nil log).symm ▸ h
  have hnone : ∀ event ∈ ([] : List FacadeEvent), event.isFinish = false := nofun
  have hleaves : LeavesNothing (log ++ []) (.finished name s.registry none) := by
    rw [List.append_nil]
    exact ⟨nofun, .inr hsound⟩
  have hkept : FacadeKept log (.registration name .clearAdapterRegistration) _ _ :=
    FacadeKept.release hnil hlookup hold hnone (iff_of_true hleaves rfl)
  rwa [List.nil_append, heq] at hkept

theorem facadeKept_registration (h : FacadeInv log s) (hlookup : s.registrations.lookup name = some registration)
    {op : RegistrationOp} (hstep : s.registrationStep name registration op = some (events, s')) :
    FacadeKept log (.registration name op) events s' := by
  cases op with
  | beginAdapterRegistration =>
      simp only [Facade.registrationStep] at hstep
      split at hstep
      · exact facadeKept_begin h hlookup ‹_› (Option.some.inj hstep)
      · cases hstep
  | adapterRegisterTrial answer =>
      simp only [Facade.registrationStep] at hstep
      split at hstep
      · exact facadeKept_registerTrial h hlookup ‹_› (Option.some.inj hstep)
      · cases hstep
  | adapterReferenceTrial answer =>
      simp only [Facade.registrationStep] at hstep
      split at hstep
      · exact facadeKept_referenceTrial h hlookup ‹_› (Option.some.inj hstep)
      · cases hstep
  | publish =>
      simp only [Facade.registrationStep] at hstep
      split at hstep
      · exact facadeKept_publish h hlookup ‹_› (Option.some.inj hstep)
      · cases hstep
  | dropAdapterReference raises =>
      simp only [Facade.registrationStep] at hstep
      split at hstep
      · exact facadeKept_drop h hlookup ‹_› (Option.some.inj hstep)
      · cases hstep
  | clearAdapterRegistration =>
      simp only [Facade.registrationStep] at hstep
      split at hstep
      · exact facadeKept_clear h hlookup ‹_› (Option.some.inj hstep)
      · cases hstep

/-! ### Runs -/

theorem facadeKept_step (processId : Nat) (h : FacadeInv log s) {op : FacadeOp}
    (hstep : s.step processId op = some (events, s')) : FacadeKept log op events s' := by
  cases op with
  | openAccess threadId => exact facadeKept_openAccess h (Option.some.inj hstep)
  | closeAccess scope =>
      obtain ⟨hscope, heq⟩ := Option.ite_none_right_eq_some.mp hstep
      exact facadeKept_closeAccess h hscope (Option.some.inj heq)
  | openTransition threadId => exact facadeKept_openTransition h (Option.some.inj hstep)
  | closeTransition scope =>
      obtain ⟨hscope, heq⟩ := Option.ite_none_right_eq_some.mp hstep
      exact facadeKept_closeTransition h hscope (Option.some.inj heq)
  | registerAdapter threadId =>
      obtain ⟨rfl, rfl⟩ := Prod.mk.inj (Option.some.inj hstep)
      exact facadeKept_registerAdapter processId h threadId
  | admitOwner threadId rotate => exact facadeKept_admitOwner processId h (Option.some.inj hstep)
  | registration name op =>
      obtain ⟨registration, hlookup, hone⟩ := Option.bind_eq_some_iff.mp hstep
      exact facadeKept_registration h hlookup hone
  | closeOwner =>
      obtain ⟨rfl, rfl⟩ := Prod.mk.inj (Option.some.inj hstep)
      exact facadeKept_closeOwner h
  | closeReference reference =>
      obtain ⟨rfl, rfl⟩ := Prod.mk.inj (Option.some.inj hstep)
      exact facadeKept_closeReference h reference
  | detach reference =>
      obtain ⟨rfl, rfl⟩ := Prod.mk.inj (Option.some.inj hstep)
      exact facadeKept_detach h reference

theorem facadeInv_init : FacadeInv [] {} where
  scopes := ⟨Tally.Counts.nil, Tally.Counts.nil, rfl, rfl⟩
  reservations := ⟨nofun, nofun, nofun, nofun⟩
  calm := nofun
  points := ⟨nofun, nofun⟩
  owned := nofun
  sound := Throughout.nil

theorem facadeInv_run (processId : Nat) {trace : List (FacadeOp × List FacadeEvent)}
    (hrun : (Facade.machine processId).Run {} trace s) :
    FacadeInv (trace.flatMap Prod.snd) s ∧
      (Throughout LeavesNothing (trace.flatMap Prod.snd) ↔ ∀ step ∈ trace, step.1.dropRaises = false) := by
  refine hrun.induction (fun trace s => FacadeInv (trace.flatMap Prod.snd) s ∧
    (Throughout LeavesNothing (trace.flatMap Prod.snd) ↔ ∀ step ∈ trace, step.1.dropRaises = false))
    ⟨facadeInv_init, iff_of_true Throughout.nil nofun⟩ ?_
  intro trace s op events s' _ ⟨hinv, hleaves⟩ hstep
  have hkept := facadeKept_step processId hinv hstep
  rw [List.flatMap_append, List.flatMap_singleton]
  refine ⟨hkept.inv, ?_⟩
  rw [hkept.leaves, hleaves, List.forall_mem_append, List.forall_mem_singleton]

/-- What the registry promises after every run, with the log of the run. -/
structure FacadeSafe (log : List FacadeEvent) (s : Facade) : Prop where
  accesses : s.ownerAccesses.Counts ((accessesIn log).map OwnerScope.threadId)
  transitions : s.ownerTransitions.Counts ((transitionsIn log).map OwnerScope.threadId)
  /-- Whoever has a reservation has the one of the table. -/
  reserved : ∀ name registration reservation, s.registrations.lookup name = some registration →
    registration.point.reservation = some reservation →
    s.ownerRegistration = some reservation ∧ reservation.token = name
  sound : Throughout EventSound log
  leaves : Throughout LeavesNothing log
  /-- The owner is reserved only for a registration that is under way. -/
  underWay : ∀ reservation, s.ownerRegistration = some reservation → (s.registrations.lookup reservation.token).isSome

/-- The registry keeps what it promises as long as every native reference that is not published can be dropped. -/
theorem facade_safe_iff (processId : Nat) {trace : List (FacadeOp × List FacadeEvent)} {s : Facade}
    (hrun : (Facade.machine processId).Run {} trace s) :
    FacadeSafe (trace.flatMap Prod.snd) s ↔ ∀ step ∈ trace, step.1.dropRaises = false := by
  obtain ⟨hinv, hleaves⟩ := facadeInv_run processId hrun
  refine ⟨fun h => hleaves.mp h.leaves, fun h => ?_⟩
  have hthroughout := hleaves.mpr h
  refine ⟨?_, ?_, hinv.reservations.held, hinv.sound, hthroughout, fun reservation hreserved => ?_⟩
  · rw [← hinv.scopes.openAccesses]
    exact hinv.scopes.accesses
  · rw [← hinv.scopes.openTransitions]
    exact hinv.scopes.transitions
  · obtain hunder | ⟨registry, hmem⟩ := hinv.owned reservation hreserved
    · exact hunder
    · obtain ⟨before, after, hlog⟩ := List.append_of_mem hmem
      exact absurd rfl (hthroughout before _ after hlog).1

/-- Another thread uses the adapter while it is registered. -/
def disturbedRegistration : List FacadeOp :=
  [.registerAdapter 1, .registration 0 .beginAdapterRegistration, .registration 0 (.adapterRegisterTrial .admitted),
    .openAccess 2, .closeAccess ⟨1, 2⟩, .registration 0 .publish]

def droppedRegistration : List FacadeOp :=
  disturbedRegistration ++ [.registration 0 (.dropAdapterReference false), .registration 0 .clearAdapterRegistration,
    .admitOwner 2 false, .registration 2 .beginAdapterRegistration]

/-- The reference is dropped, and the owner can be registered again. -/
theorem facade_safe_dropped : ∃ trace s, (Facade.machine 7).exec {} droppedRegistration = some (trace, s) ∧
    FacadeSafe (trace.flatMap Prod.snd) s := by
  have hexec : ((Facade.machine 7).exec {} droppedRegistration).isSome = true := rfl
  obtain ⟨⟨trace, s⟩, hexec⟩ := Option.isSome_iff_exists.mp hexec
  refine ⟨trace, s, hexec, (facade_safe_iff 7 (Machine.run_of_exec hexec)).mpr fun step hstep => ?_⟩
  have hops : ∀ op ∈ droppedRegistration, op.dropRaises = false := by decide
  refine hops step.1 ?_
  rw [← Machine.exec_inputs hexec]
  exact List.mem_map_of_mem hstep

/-- The drop raises, and the reservation of a registration that is over refuses every later one. -/
theorem facade_raising_drop_locks_owner :
    ∃ trace s, (Facade.machine 7).exec {} (disturbedRegistration ++ [.registration 0 (.dropAdapterReference true),
        .admitOwner 2 false]) = some (trace, s) ∧
      s.ownerRegistration.map OwnerRegistrationReservation.token = some 0 ∧ s.registrations.lookup 0 = none ∧
      trace.getLast? = some (.admitOwner 2 false, [.admissionRefused]) ∧ ¬FacadeSafe (trace.flatMap Prod.snd) s := by
  refine ⟨_, _, rfl, rfl, rfl, rfl, fun hsafe => ?_⟩
  cases hsafe.underWay _ rfl

end RequestsNative.Python
