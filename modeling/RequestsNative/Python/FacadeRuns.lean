import RequestsNative.Python.FacadeRegistry

/-!
# Runs of the facade registry

Five facts hold at every moment of every run: the tables count the scopes that are open, a reservation belongs to one
registration, that is under way or has left it behind, a reservation whose epoch has not moved has not been disturbed, and
a registration on its way out has nothing left in the registry. What a registration promises when it is over follows from the point it is at, with one
exception: if the native reference cannot be dropped, the reservation stays.
-/

namespace RequestsNative.Python

open RequestsNative.Lib

/-! ### What has happened -/

/-- The accesses that are open after a log. -/
def accessesIn (log : List FacadeEvent) : List OwnerScope :=
  log.foldl (fun scopes event =>
    match event with
    | .accessOpened scope _ => scope :: scopes
    | .accessClosed scope => scopes.erase scope
    | _ => scopes) []

/-- The transitions that are open after a log. -/
def transitionsIn (log : List FacadeEvent) : List OwnerScope :=
  log.foldl (fun scopes event =>
    match event with
    | .transitionOpened scope _ => scope :: scopes
    | .transitionClosed scope _ => scopes.erase scope
    | _ => scopes) []

/-- An access, a transition or another registration begins. -/
def FacadeEvent.disturbs : FacadeEvent → Bool
  | .accessOpened _ _ | .transitionOpened _ _ | .began _ | .refused _ | .admissionRefused => true
  | _ => false

/-- Nothing has begun since the registration has, and no transition was open then. -/
def Undisturbed (log : List FacadeEvent) (name : Nat) : Prop :=
  ∃ first second, log = first ++ .began name :: second ∧ transitionsIn first = [] ∧
    ∀ event ∈ second, event.disturbs = false

/-- A transition is quiescent if it was the last, without an access; a reference is published undisturbed. -/
def EventSound (before : List FacadeEvent) : FacadeEvent → Prop
  | .transitionClosed scope quiescent =>
      quiescent = true ↔ (transitionsIn before).erase scope = [] ∧ accessesIn before = []
  | .published name _ => Undisturbed before name ∧ transitionsIn before = []
  | .lost _ => False
  | _ => True

/-- A registration that is over has no reservation, and unless it has published its reference that is dropped and not in
the registry. -/
def LeavesNothing (before : List FacadeEvent) : FacadeEvent → Prop
  | .finished name registry reserved =>
      reserved.map OwnerRegistrationReservation.token ≠ some name ∧
      ((∃ reference, .published name reference ∈ before) ∨ ∀ reference, .referenced name reference ∈ before →
        .dropped name reference ∈ before ∧ registry.map FacadeEntry.reference ≠ some reference)
  | _ => True

theorem Undisturbed.append {log events : List FacadeEvent} {name : Nat} (h : Undisturbed log name)
    (hevents : ∀ event ∈ events, event.disturbs = false) : Undisturbed (log ++ events) name := by
  obtain ⟨first, second, rfl, hfirst, hsecond⟩ := h
  refine ⟨first, second ++ events, by rw [List.append_assoc, List.cons_append], hfirst, fun event hevent => ?_⟩
  obtain hevent | hevent := List.mem_append.mp hevent
  · exact hsecond event hevent
  · exact hevents event hevent

/-! ### The five facts -/

/-- The tables count the scopes, and the scopes are those of the log. -/
structure Scopes (log : List FacadeEvent) (accesses transitions : Tally Nat) (openAccesses openTransitions : List OwnerScope) :
    Prop where
  accesses : accesses.Counts (openAccesses.map OwnerScope.threadId)
  transitions : transitions.Counts (openTransitions.map OwnerScope.threadId)
  openAccesses : openAccesses = accessesIn log
  openTransitions : openTransitions = transitionsIn log

def RegistrationPoint.reservation : RegistrationPoint → Option OwnerRegistrationReservation
  | .entering => none
  | .registering reservation | .looking reservation | .referenced reservation _ | .dropping reservation _
  | .clearing reservation => some reservation

/-- A registration that has a reservation has the one of the table. -/
structure Reservations (registrations : AList fun _ : Nat => Registration)
    (reserved : Option OwnerRegistrationReservation) (names epochs : Nat) : Prop where
  held : ∀ name registration reservation, registrations.lookup name = some registration →
    registration.point.reservation = some reservation → reserved = some reservation ∧ reservation.token = name
  begun : ∀ reservation registration, reserved = some reservation →
    registrations.lookup reservation.token = some registration → registration.point ≠ .entering
  bounds : ∀ reservation, reserved = some reservation → reservation.token < names ∧ reservation.epoch < epochs
  named : ∀ name registration, registrations.lookup name = some registration → name < names

/-- As long as the epoch stands, nothing has disturbed the registration. -/
def Calm (log : List FacadeEvent) (reserved : Option OwnerRegistrationReservation) (epoch : Option Nat) : Prop :=
  ∀ reservation, reserved = some reservation → epoch = some reservation.epoch → Undisturbed log reservation.token

/-- What is known of the reference of a registration, by its point. -/
def PointSound (log : List FacadeEvent) (registry : Option FacadeEntry) (name : Nat) : RegistrationPoint → Prop
  | .entering | .registering _ | .looking _ => ∀ reference, .referenced name reference ∉ log
  | .referenced _ reference => ∀ other, .referenced name other ∈ log → other = reference
  | .dropping _ reference => (∀ other, .referenced name other ∈ log → other = reference) ∧
      registry.map FacadeEntry.reference ≠ some reference
  | .clearing _ => ∀ reference, .referenced name reference ∈ log →
      .dropped name reference ∈ log ∧ registry.map FacadeEntry.reference ≠ some reference

structure Points (log : List FacadeEvent) (registry : Option FacadeEntry)
    (registrations : AList fun _ : Nat => Registration) (names : Nat) : Prop where
  sound : ∀ name registration, registrations.lookup name = some registration →
    PointSound log registry name registration.point
  named : ∀ name reference, .referenced name reference ∈ log → name < names

/-- A reservation is that of a registration which is under way, or which has left it behind. -/
def Owned (log : List FacadeEvent) (registrations : AList fun _ : Nat => Registration)
    (reserved : Option OwnerRegistrationReservation) : Prop :=
  ∀ reservation, reserved = some reservation → (registrations.lookup reservation.token).isSome ∨
    ∃ registry, .finished reservation.token registry (some reservation) ∈ log

structure FacadeInv (log : List FacadeEvent) (s : Facade) : Prop where
  scopes : Scopes log s.ownerAccesses s.ownerTransitions s.openAccesses s.openTransitions
  reservations : Reservations s.registrations s.ownerRegistration s.names s.activityEpochs
  calm : Calm log s.ownerRegistration s.ownerActivityEpoch
  points : Points log s.registry s.registrations s.names
  owned : Owned log s.registrations s.ownerRegistration
  sound : Throughout EventSound log

/-! ### How the facts are kept -/

section Kept

variable {log events : List FacadeEvent} {accesses transitions : Tally Nat} {openAccesses openTransitions : List OwnerScope}
  {registrations : AList fun _ : Nat => Registration} {reserved : Option OwnerRegistrationReservation}
  {reservation : OwnerRegistrationReservation} {registry registry' : Option FacadeEntry} {registration : Registration}
  {point : RegistrationPoint} {name names names' epochs epochs' : Nat} {scope : OwnerScope}

/-- A scope is opened or closed. -/
def FacadeEvent.isScope : FacadeEvent → Bool
  | .accessOpened _ _ | .accessClosed _ | .transitionOpened _ _ | .transitionClosed _ _ => true
  | _ => false

theorem scopesIn_append (log : List FacadeEvent) (hevents : ∀ event ∈ events, event.isScope = false) :
    accessesIn (log ++ events) = accessesIn log ∧ transitionsIn (log ++ events) = transitionsIn log := by
  induction events using List.reverseRecOn with
  | nil => rw [List.append_nil]; exact ⟨rfl, rfl⟩
  | append_singleton events event ih =>
      obtain ⟨haccesses, htransitions⟩ := ih fun other hother => hevents other (List.mem_append_left _ hother)
      have hevent := hevents event (List.mem_append_right _ (List.mem_singleton_self event))
      rw [← List.append_assoc, ← haccesses, ← htransitions]
      simp only [accessesIn, transitionsIn, List.foldl_append, List.foldl_cons, List.foldl_nil]
      cases event <;> first | exact ⟨rfl, rfl⟩ | cases hevent

theorem Scopes.append (h : Scopes log accesses transitions openAccesses openTransitions)
    (hevents : ∀ event ∈ events, event.isScope = false) :
    Scopes (log ++ events) accesses transitions openAccesses openTransitions := by
  obtain ⟨haccesses, htransitions⟩ := scopesIn_append log hevents
  exact ⟨h.accesses, h.transitions, haccesses ▸ h.openAccesses, htransitions ▸ h.openTransitions⟩

theorem Scopes.openAccess (h : Scopes log accesses transitions openAccesses openTransitions) (scope : OwnerScope)
    (allowed : Bool) :
    Scopes (log ++ [.accessOpened scope allowed]) (accesses.increment scope.threadId) transitions (scope :: openAccesses)
      openTransitions := by
  refine ⟨h.accesses.increment scope.threadId, h.transitions, ?_, ?_⟩
  · simp [accessesIn, List.foldl_append, h.openAccesses]
  · simp [transitionsIn, List.foldl_append, h.openTransitions]

theorem Scopes.openTransition (h : Scopes log accesses transitions openAccesses openTransitions) (scope : OwnerScope)
    (first : Bool) :
    Scopes (log ++ [.transitionOpened scope first]) accesses (transitions.increment scope.threadId) openAccesses
      (scope :: openTransitions) := by
  refine ⟨h.accesses, h.transitions.increment scope.threadId, ?_, ?_⟩
  · simp [accessesIn, List.foldl_append, h.openAccesses]
  · simp [transitionsIn, List.foldl_append, h.openTransitions]

/-- The table without the scope counts the scopes without it. -/
theorem counts_erase {tally : Tally Nat} {scopes : List OwnerScope} (h : tally.Counts (scopes.map OwnerScope.threadId))
    (hscope : scope ∈ scopes) :
    (tally.decrement scope.threadId).Counts ((scopes.erase scope).map OwnerScope.threadId) := by
  refine (h.decrement scope.threadId).perm ?_
  have hperm := (List.perm_cons_erase hscope).map OwnerScope.threadId
  exact (hperm.erase scope.threadId).trans (by rw [List.map_cons, List.erase_cons_head])

theorem Scopes.closeAccess (h : Scopes log accesses transitions openAccesses openTransitions)
    (hscope : scope ∈ openAccesses) :
    Scopes (log ++ [.accessClosed scope]) (accesses.decrement scope.threadId) transitions (openAccesses.erase scope)
      openTransitions := by
  refine ⟨counts_erase h.accesses hscope, h.transitions, ?_, ?_⟩
  · simp [accessesIn, List.foldl_append, h.openAccesses]
  · simp [transitionsIn, List.foldl_append, h.openTransitions]

theorem Scopes.closeTransition (h : Scopes log accesses transitions openAccesses openTransitions)
    (hscope : scope ∈ openTransitions) (quiescent : Bool) :
    Scopes (log ++ [.transitionClosed scope quiescent]) accesses (transitions.decrement scope.threadId) openAccesses
      (openTransitions.erase scope) := by
  refine ⟨h.accesses, counts_erase h.transitions hscope, ?_, ?_⟩
  · simp [accessesIn, List.foldl_append, h.openAccesses]
  · simp [transitionsIn, List.foldl_append, h.openTransitions]

theorem Reservations.mono (h : Reservations registrations reserved names epochs) (hnames : names ≤ names')
    (hepochs : epochs ≤ epochs') : Reservations registrations reserved names' epochs' := by
  refine ⟨h.held, h.begun, fun reservation hreserved => ?_, fun name registration hlookup => ?_⟩
  · obtain ⟨htoken, hepoch⟩ := h.bounds reservation hreserved
    exact ⟨Nat.lt_of_lt_of_le htoken hnames, Nat.lt_of_lt_of_le hepoch hepochs⟩
  · exact Nat.lt_of_lt_of_le (h.named name registration hlookup) hnames

/-- A registration enters without a reservation. -/
theorem Reservations.enter (h : Reservations registrations reserved names epochs) (hpoint : registration.point = .entering) :
    Reservations (registrations.insert names registration) reserved (names + 1) epochs := by
  constructor
  · intro name other reservation hlookup hreservation
    by_cases hname : name = names
    · subst hname
      rw [AList.lookup_insert] at hlookup
      obtain rfl := Option.some.inj hlookup
      rw [hpoint] at hreservation
      cases hreservation
    · rw [AList.lookup_insert_ne hname] at hlookup
      exact h.held name other reservation hlookup hreservation
  · intro reservation other hreserved hlookup
    have hne : reservation.token ≠ names := Nat.ne_of_lt (h.bounds reservation hreserved).1
    rw [AList.lookup_insert_ne hne] at hlookup
    exact h.begun reservation other hreserved hlookup
  · exact (h.mono (Nat.le_succ names) (Nat.le_refl epochs)).bounds
  · intro name other hlookup
    by_cases hname : name = names
    · exact hname ▸ Nat.lt_succ_self names
    · rw [AList.lookup_insert_ne hname] at hlookup
      exact Nat.lt_succ_of_lt (h.named name other hlookup)

/-- A registration goes on with its reservation. -/
theorem Reservations.goTo (h : Reservations registrations reserved names epochs)
    (hlookup : registrations.lookup name = some registration) (hold : registration.point.reservation = some reservation)
    (hnew : point.reservation = some reservation) :
    Reservations (registrations.insert name { registration with point }) reserved names epochs := by
  constructor
  · intro other registration' reservation' hother hreservation
    by_cases hname : other = name
    · subst hname
      rw [AList.lookup_insert] at hother
      obtain rfl := Option.some.inj hother
      obtain rfl := Option.some.inj (hnew.symm.trans hreservation)
      exact h.held other registration reservation hlookup hold
    · rw [AList.lookup_insert_ne hname] at hother
      exact h.held other registration' reservation' hother hreservation
  · intro reservation' registration' hreserved hother hentering
    by_cases hname : reservation'.token = name
    · rw [hname, AList.lookup_insert] at hother
      obtain rfl := Option.some.inj hother
      rw [show point = .entering from hentering] at hnew
      cases hnew
    · rw [AList.lookup_insert_ne hname] at hother
      exact h.begun reservation' registration' hreserved hother hentering
  · exact h.bounds
  · intro other registration' hother
    by_cases hname : other = name
    · exact hname ▸ h.named name registration hlookup
    · rw [AList.lookup_insert_ne hname] at hother
      exact h.named other registration' hother

/-- A registration reserves an owner that nobody has reserved. -/
theorem Reservations.begin (h : Reservations registrations none names epochs)
    (hlookup : registrations.lookup name = some registration) (htoken : reservation.token = name)
    (hepoch : reservation.epoch = epochs) :
    Reservations (registrations.insert name { registration with point := .registering reservation }) (some reservation)
      names (epochs + 1) := by
  constructor
  · intro other registration' reservation' hother hreservation
    by_cases hname : other = name
    · subst hname
      rw [AList.lookup_insert] at hother
      obtain rfl := Option.some.inj hother
      exact ⟨hreservation, Option.some.inj hreservation ▸ htoken⟩
    · rw [AList.lookup_insert_ne hname] at hother
      cases (h.held other registration' reservation' hother hreservation).1
  · intro reservation' registration' hreserved hother hentering
    obtain rfl := Option.some.inj hreserved
    rw [htoken, AList.lookup_insert] at hother
    obtain rfl := Option.some.inj hother
    cases hentering
  · intro reservation' hreserved
    obtain rfl := Option.some.inj hreserved
    exact ⟨htoken ▸ h.named name registration hlookup, hepoch ▸ Nat.lt_succ_self epochs⟩
  · intro other registration' hother
    by_cases hname : other = name
    · exact hname ▸ h.named name registration hlookup
    · rw [AList.lookup_insert_ne hname] at hother
      exact h.named other registration' hother

/-- A registration is over, and the table stays. -/
theorem Reservations.erase (h : Reservations registrations reserved names epochs) (name : Nat) :
    Reservations (registrations.erase name) reserved names epochs := by
  have hlookup {other : Nat} {registration : Registration} (hother : (registrations.erase name).lookup other = some registration) :
      registrations.lookup other = some registration := by
    by_cases hname : other = name
    · rw [hname, AList.lookup_erase] at hother
      cases hother
    · rwa [AList.lookup_erase_ne hname] at hother
  exact ⟨fun other registration reservation hother => h.held other registration reservation (hlookup hother),
    fun reservation registration hreserved hother => h.begun reservation registration hreserved (hlookup hother), h.bounds,
    fun other registration hother => h.named other registration (hlookup hother)⟩

/-- Nobody else has a reservation. -/
theorem Reservations.only (h : Reservations registrations reserved names epochs)
    (hlookup : registrations.lookup name = some registration) (hreservation : registration.point.reservation = some reservation)
    {other : Nat} {registration' : Registration} (hother : registrations.lookup other = some registration')
    (hne : other ≠ name) : registration'.point = .entering := by
  obtain ⟨hreserved, htoken⟩ := h.held name registration reservation hlookup hreservation
  cases hpoint : registration'.point.reservation with
  | none =>
      cases hpoint' : registration'.point with
      | entering => rfl
      | registering | looking | referenced | dropping | clearing =>
          rw [hpoint'] at hpoint
          cases hpoint
  | some reservation' =>
      obtain ⟨hreserved', htoken'⟩ := h.held other registration' reservation' hother hpoint
      obtain rfl := Option.some.inj (hreserved.symm.trans hreserved')
      exact absurd (htoken'.symm.trans htoken) hne

/-- A registration is over, and its reservation with it. -/
theorem Reservations.release (h : Reservations registrations reserved names epochs)
    (hlookup : registrations.lookup name = some registration)
    (hreservation : registration.point.reservation = some reservation) :
    Reservations (registrations.erase name) none names epochs := by
  refine ⟨fun other registration' reservation' hother hpoint => ?_, nofun, nofun, (h.erase name).named⟩
  by_cases hname : other = name
  · rw [hname, AList.lookup_erase] at hother
    cases hother
  · rw [AList.lookup_erase_ne hname] at hother
    rw [h.only hlookup hreservation hother hname] at hpoint
    cases hpoint

theorem Calm.append {epoch : Option Nat} (h : Calm log reserved epoch) (hevents : ∀ event ∈ events, event.disturbs = false) :
    Calm (log ++ events) reserved epoch :=
  fun reservation hreserved hepoch => (h reservation hreserved hepoch).append hevents

/-- A new epoch is no reservation's. -/
theorem Reservations.calm (h : Reservations registrations reserved names epochs) : Calm log reserved (some epochs) := by
  intro reservation hreserved hepoch
  have hbound := (h.bounds reservation hreserved).2
  rw [← Option.some.inj hepoch] at hbound
  exact absurd hbound (Nat.lt_irrefl _)

/-- The registration learns of a reference. -/
def FacadeEvent.isReference : FacadeEvent → Bool
  | .referenced _ _ => true
  | _ => false

theorem referenced_append (hevents : ∀ event ∈ events, event.isReference = false) {reference : Nat} :
    .referenced name reference ∈ log ++ events ↔ .referenced name reference ∈ log := by
  rw [List.mem_append]
  refine or_iff_left fun hmem => ?_
  cases hevents _ hmem

/-- Without a reference of its own, and with no other entry in the registry, what is known of a registration stays. -/
theorem PointSound.append (h : PointSound log registry name point)
    (hevents : ∀ reference, .referenced name reference ∈ log ++ events → .referenced name reference ∈ log)
    (hregistry : registry' = registry ∨ registry' = none) : PointSound (log ++ events) registry' name point := by
  have hne {reference : Nat} (hold : registry.map FacadeEntry.reference ≠ some reference) :
      registry'.map FacadeEntry.reference ≠ some reference := by
    obtain rfl | rfl := hregistry
    · exact hold
    · exact nofun
  cases point with
  | entering | registering | looking => exact fun reference hmem => h reference (hevents reference hmem)
  | referenced => exact fun other hmem => h other (hevents other hmem)
  | dropping => exact ⟨fun other hmem => h.1 other (hevents other hmem), hne h.2⟩
  | clearing =>
      intro reference hmem
      obtain ⟨hdropped, hold⟩ := h reference (hevents reference hmem)
      exact ⟨List.mem_append_left _ hdropped, hne hold⟩

theorem Points.append (h : Points log registry registrations names) (hevents : ∀ event ∈ events, event.isReference = false)
    (hregistry : registry' = registry ∨ registry' = none) (hnames : names ≤ names') :
    Points (log ++ events) registry' registrations names' := by
  refine ⟨fun name registration hlookup => (h.sound name registration hlookup).append
    (fun _ => (referenced_append hevents).mp) hregistry, fun name reference hmem => ?_⟩
  exact Nat.lt_of_lt_of_le (h.named name reference ((referenced_append hevents).mp hmem)) hnames

/-- A registration enters without a reference. -/
theorem Points.enter (h : Points log registry registrations names) (hpoint : registration.point = .entering) :
    Points log registry (registrations.insert names registration) (names + 1) := by
  refine ⟨fun name other hlookup => ?_, fun name reference hmem => Nat.lt_succ_of_lt (h.named name reference hmem)⟩
  by_cases hname : name = names
  · subst hname
    rw [AList.lookup_insert] at hlookup
    obtain rfl := Option.some.inj hlookup
    rw [hpoint]
    exact fun reference hmem => Nat.lt_irrefl _ (h.named name reference hmem)
  · rw [AList.lookup_insert_ne hname] at hlookup
    exact h.sound name other hlookup

/-- A registration goes to a point, and what is known there is said of it. -/
theorem Points.goTo (h : Points log registry registrations names) (hpoint : PointSound log registry name point) :
    Points log registry (registrations.insert name { registration with point }) names := by
  refine ⟨fun other registration' hlookup => ?_, h.named⟩
  by_cases hname : other = name
  · subst hname
    rw [AList.lookup_insert] at hlookup
    obtain rfl := Option.some.inj hlookup
    exact hpoint
  · rw [AList.lookup_insert_ne hname] at hlookup
    exact h.sound other registration' hlookup

/-- A registration that has no reference yet learns of one. -/
theorem Points.refer (h : Points log registry registrations names) (hname : name < names)
    (hunreferenced : ∀ reference, .referenced name reference ∉ log) (reference : Nat) :
    Points (log ++ [.referenced name reference]) registry
      (registrations.insert name { registration with point := .referenced reservation reference }) names := by
  have hmem {other found : Nat} (h : .referenced other found ∈ log ++ [.referenced name reference]) :
      .referenced other found ∈ log ∨ (other = name ∧ found = reference) := by
    obtain h | h := List.mem_append.mp h
    · exact .inl h
    · exact .inr (FacadeEvent.referenced.inj (List.mem_singleton.mp h))
  refine ⟨fun other registration' hother => ?_, fun other found hfound => ?_⟩
  · by_cases hother' : other = name
    · subst hother'
      rw [AList.lookup_insert] at hother
      obtain rfl := Option.some.inj hother
      intro found hfound
      obtain hold | ⟨-, heq⟩ := hmem hfound
      · exact absurd hold (hunreferenced found)
      · exact heq
    · rw [AList.lookup_insert_ne hother'] at hother
      refine (h.sound other registration' hother).append (fun found hfound => ?_) (.inl rfl)
      obtain hold | ⟨heq, -⟩ := hmem hfound
      · exact hold
      · exact absurd heq hother'
  · obtain hold | ⟨rfl, -⟩ := hmem hfound
    · exact h.named other found hold
    · exact hname

theorem Points.erase (h : Points log registry registrations names) (name : Nat) :
    Points log registry (registrations.erase name) names := by
  refine ⟨fun other registration hlookup => ?_, h.named⟩
  by_cases hname : other = name
  · rw [hname, AList.lookup_erase] at hlookup
    cases hlookup
  · rw [AList.lookup_erase_ne hname] at hlookup
    exact h.sound other registration hlookup

/-- With a registration its reservation goes, and the others have no reference yet: the registry may be any. -/
theorem Points.release (h : Points log registry registrations names)
    (honly : ∀ other registration, registrations.lookup other = some registration → other ≠ name →
      registration.point = .entering) : Points log registry' (registrations.erase name) names := by
  refine ⟨fun other registration hlookup => ?_, h.named⟩
  by_cases hname : other = name
  · rw [hname, AList.lookup_erase] at hlookup
    cases hlookup
  · rw [AList.lookup_erase_ne hname] at hlookup
    have hsound := h.sound other registration hlookup
    rw [honly other registration hlookup hname] at hsound ⊢
    exact hsound

theorem Owned.append (h : Owned log registrations reserved) : Owned (log ++ events) registrations reserved := by
  intro reservation hreserved
  obtain hunder | ⟨registry, hleft⟩ := h reservation hreserved
  · exact .inl hunder
  · exact .inr ⟨registry, List.mem_append_left _ hleft⟩

theorem Owned.insert (h : Owned log registrations reserved) (name : Nat) (registration : Registration) :
    Owned log (registrations.insert name registration) reserved := by
  intro reservation hreserved
  by_cases hname : reservation.token = name
  · rw [hname, AList.lookup_insert]
    exact .inl rfl
  · rw [AList.lookup_insert_ne hname]
    exact h reservation hreserved

/-- What is left behind is in the log. -/
theorem Owned.finish (h : Owned log registrations reserved) (name : Nat) (registry : Option FacadeEntry) :
    Owned (log ++ [.finished name registry reserved]) (registrations.erase name) reserved := by
  intro reservation hreserved
  by_cases hname : reservation.token = name
  · refine .inr ⟨registry, List.mem_append_right _ ?_⟩
    rw [hname, hreserved]
    exact List.mem_singleton_self _
  · rw [AList.lookup_erase_ne hname]
    exact h.append reservation hreserved

end Kept

end RequestsNative.Python
