import RequestsNative.Lib.RankedMap

/-!
# Mounted adapters

A session finds the adapter of a URL by walking over the mapping of prefixes and taking the first that matches. The longest prefix
wins because `mount` keeps the mapping in descending order of length: it writes the prefix and then moves the shorter ones behind
it. The binding does the same in two places on the same dictionary. `inline_base_mount` asks `builtins` for `len`;
`execute_session_operation` asks the module `requests.sessions`, which has no such attribute unless someone has put one there,
and then fails behind the write.

A Python text is the list of its characters. What `str.lower` makes of a text beyond ASCII is left open.
-/

namespace RequestsNative.Python

open RequestsNative.Lib

/-- `str.lower`. -/
structure Lowering where
  lower : List Char → List Char
  ascii : ∀ value, (∀ c ∈ value, c.toNat < 128) → lower value = value.map Char.toLower

/-- The `InvalidSchema` of `get_adapter`, with the URL of its message. -/
structure InvalidSchema where
  url : List Char
  deriving DecidableEq, Repr

/-- The mapping of a session. -/
abbrev Adapters (Adapter : Type) := IndexMap (List Char) Adapter

namespace Adapters

variable {Adapter : Type}

/-! ### `sessions.py` -/

/-- What a mount raises. -/
inductive MountError
  | keyError (key : List Char)
  | attributeError (name : String)
  deriving DecidableEq, Repr

/-- How a mount ends, and the mapping it leaves. -/
abbrev Mounted (Adapter : Type) := Except MountError Unit × Adapters Adapter

/-- `self.adapters[key] = self.adapters.pop(key)`, for one key after the other. -/
def moveKeys : List (List Char) → Adapters Adapter → Mounted Adapter
  | [], adapters => (.ok (), adapters)
  | key :: keys, adapters =>
      match adapters.moveToEnd key with
      | none => (.error (.keyError key), adapters)
      | some moved => moveKeys keys moved

/-- `Session.mount`. -/
def mount (adapters : Adapters Adapter) (mountPrefix : List Char) (adapter : Adapter) : Mounted Adapter :=
  let adapters := adapters.insert mountPrefix adapter
  let keysToMove := (adapters.entries.map Prod.fst).filter fun key => key.length < mountPrefix.length
  moveKeys keysToMove adapters

/-- The loop of `Session.get_adapter`. -/
def getAdapterFrom (lowering : Lowering) (url : List Char) : List (List Char × Adapter) → Except InvalidSchema Adapter
  | [] => .error ⟨url⟩
  | (mountPrefix, adapter) :: rest =>
      if (lowering.lower mountPrefix).isPrefixOf (lowering.lower url) then .ok adapter else getAdapterFrom lowering url rest

def getAdapter (lowering : Lowering) (adapters : Adapters Adapter) (url : List Char) : Except InvalidSchema Adapter :=
  getAdapterFrom lowering url adapters.entries

/-- One mount after the other, until one fails. -/
def mountAll (mount : Adapters Adapter → List Char → Adapter → Mounted Adapter) (adapters : Adapters Adapter) :
    List (List Char × Adapter) → Mounted Adapter
  | [] => (.ok (), adapters)
  | item :: mounts =>
      match mount adapters item.1 item.2 with
      | (.ok (), adapters) => mountAll mount adapters mounts
      | (.error error, adapters) => (.error error, adapters)

/-! ### `sessions.rs` -/

/-- The namespace of `requests.sessions`. No statement of the module binds `len`; code outside it can put the builtin there. -/
structure SessionsModule where
  bindsLen : Bool := false

/-- `getattr("len")` on the module, which does not look among the builtins. -/
def SessionsModule.len (sessions : SessionsModule) : Except MountError (List Char → Nat) :=
  if sessions.bindsLen then .ok List.length else .error (.attributeError "len")

namespace Native

/-- The loop that collects the keys to move. -/
def keysToMove (len : Except MountError (List Char → Nat)) (mountPrefix : List Char) (adapters : Adapters Adapter) :
    Except MountError (List (List Char)) :=
  adapters.entries.foldlM (fun keys entry => do
    let keyLen := (← len) entry.1
    let prefixLen := (← len) mountPrefix
    return if keyLen < prefixLen then keys ++ [entry.1] else keys) []

/-- The loop that moves them. -/
def moveKeys : List (List Char) → Adapters Adapter → Mounted Adapter
  | [], adapters => (.ok (), adapters)
  | key :: keys, adapters =>
      match adapters.pop key with
      | none => (.error (.keyError key), adapters)
      | some (moved, source) => moveKeys keys (source.insert key moved)

/-- Both mounts, with the `len` they ask for. -/
def mountWith (len : Except MountError (List Char → Nat)) (adapters : Adapters Adapter) (mountPrefix : List Char)
    (adapter : Adapter) : Mounted Adapter :=
  let adapters := adapters.insert mountPrefix adapter
  match keysToMove len mountPrefix adapters with
  | .error error => (.error error, adapters)
  | .ok keys => moveKeys keys adapters

/-- The `mount` of `execute_session_operation`. -/
def mount (sessions : SessionsModule) : Adapters Adapter → List Char → Adapter → Mounted Adapter := mountWith sessions.len

/-- `inline_base_mount`, with the builtin `len`. -/
def inlineBaseMount : Adapters Adapter → List Char → Adapter → Mounted Adapter := mountWith (.ok List.length)

/-- The `get-adapter` of `execute_session_operation`. -/
def getAdapter (lowering : Lowering) (adapters : Adapters Adapter) (url : List Char) : Except InvalidSchema Adapter :=
  match adapters.entries.find? fun pair => (lowering.lower pair.1).isPrefixOf (lowering.lower url) with
  | some pair => .ok pair.2
  | none => .error ⟨url⟩

end Native

/-! ### Runs of mounts -/

theorem moveKeys_eq {keys : List (List Char)} {adapters moved : Adapters Adapter}
    (h : keys.foldlM IndexMap.moveToEnd adapters = some moved) : moveKeys keys adapters = (.ok (), moved) := by
  induction keys generalizing adapters with
  | nil => rw [moveKeys, Option.some.inj h]
  | cons key keys ih =>
      obtain ⟨next, hnext, hrest⟩ := Option.bind_eq_some_iff.mp (List.foldlM_cons.symm.trans h)
      rw [moveKeys, hnext]
      exact ih hrest

theorem mount_ranked {adapters : Adapters Adapter} {writes : List (List Char × Adapter)}
    (h : IndexMap.RankedWrites List.length writes adapters.entries) (mountPrefix : List Char) (adapter : Adapter) :
    ∃ mounted, adapters.mount mountPrefix adapter = (.ok (), mounted) ∧
      IndexMap.RankedWrites List.length (writes ++ [(mountPrefix, adapter)]) mounted.entries := by
  obtain ⟨mounted, hmounted, hentries⟩ :=
    IndexMap.moveAll (fun key => decide (key.length < mountPrefix.length)) (adapters.insert mountPrefix adapter)
  refine ⟨mounted, moveKeys_eq hmounted, ?_⟩
  rw [hentries]
  exact h.write mountPrefix adapter

theorem mountAll_ranked {adapters : Adapters Adapter} {writes : List (List Char × Adapter)}
    (h : IndexMap.RankedWrites List.length writes adapters.entries) (mounts : List (List Char × Adapter)) :
    ∃ mounted, mountAll mount adapters mounts = (.ok (), mounted) ∧
      IndexMap.RankedWrites List.length (writes ++ mounts) mounted.entries := by
  induction mounts generalizing adapters writes with
  | nil => exact ⟨adapters, rfl, by rwa [List.append_nil]⟩
  | cons item mounts ih =>
      obtain ⟨next, hnext, hranked⟩ := mount_ranked h item.1 item.2
      obtain ⟨mounted, hmounted, hall⟩ := ih hranked
      refine ⟨mounted, ?_, by rwa [List.append_assoc, List.singleton_append] at hall⟩
      rw [mountAll, hnext]
      exact hmounted

/-! ### The choice -/

/-- Whether a prefix matches a URL, whatever their case. -/
def Matches (lowering : Lowering) (url mountPrefix : List Char) : Prop := lowering.lower mountPrefix <+: lowering.lower url

theorem matches_ascii (lowering : Lowering) {url mountPrefix : List Char} (hurl : ∀ c ∈ url, c.toNat < 128)
    (hmount : ∀ c ∈ mountPrefix, c.toNat < 128) :
    Matches lowering url mountPrefix ↔ mountPrefix.map Char.toLower <+: url.map Char.toLower := by
  rw [Matches, lowering.ascii url hurl, lowering.ascii mountPrefix hmount]

theorem getAdapterFrom_ok {lowering : Lowering} {url : List Char} {entries : List (List Char × Adapter)} {adapter : Adapter}
    (hsorted : entries.Pairwise fun a b => b.1.length ≤ a.1.length) (h : getAdapterFrom lowering url entries = .ok adapter) :
    ∃ mountPrefix, (mountPrefix, adapter) ∈ entries ∧ Matches lowering url mountPrefix ∧
      ∀ other ∈ entries, Matches lowering url other.1 → other.1.length ≤ mountPrefix.length := by
  induction entries with
  | nil => cases h
  | cons entry entries ih =>
      obtain ⟨hfirst, hrest⟩ := List.pairwise_cons.mp hsorted
      rw [getAdapterFrom] at h
      split at h
      · rename_i hmatch
        obtain rfl := Except.ok.inj h
        refine ⟨entry.1, List.mem_cons_self, List.isPrefixOf_iff_prefix.mp hmatch, fun other hother _ => ?_⟩
        obtain rfl | hother := List.mem_cons.mp hother
        · exact Nat.le_refl _
        · exact hfirst other hother
      · rename_i hnone
        obtain ⟨mountPrefix, hmem, hmatch, hlongest⟩ := ih hrest h
        refine ⟨mountPrefix, List.mem_cons_of_mem _ hmem, hmatch, fun other hother hmatches => ?_⟩
        obtain rfl | hother := List.mem_cons.mp hother
        · exact absurd (List.isPrefixOf_iff_prefix.mpr hmatches) hnone
        · exact hlongest other hother hmatches

theorem getAdapterFrom_error {lowering : Lowering} {url : List Char} {entries : List (List Char × Adapter)} :
    getAdapterFrom lowering url entries = .error ⟨url⟩ ↔ ∀ entry ∈ entries, ¬Matches lowering url entry.1 := by
  induction entries with
  | nil => simp [getAdapterFrom]
  | cons entry entries ih =>
      rw [getAdapterFrom, List.forall_mem_cons, ← ih, Matches, ← List.isPrefixOf_iff_prefix]
      split
      · rename_i hmatch
        simp [hmatch]
      · rename_i hnone
        simp [hnone]

/-! ### The native operations -/

theorem Native.keysToMove_ok (mountPrefix : List Char) (adapters : Adapters Adapter) :
    Native.keysToMove (.ok List.length) mountPrefix adapters =
      .ok ((adapters.entries.map Prod.fst).filter fun key => key.length < mountPrefix.length) := by
  suffices hfrom : ∀ (entries : List (List Char × Adapter)) (keys : List (List Char)),
      entries.foldlM (fun keys entry => do
        let keyLen := (← (.ok List.length : Except MountError (List Char → Nat))) entry.1
        let prefixLen := (← (.ok List.length : Except MountError (List Char → Nat))) mountPrefix
        return if keyLen < prefixLen then keys ++ [entry.1] else keys) keys =
        .ok (keys ++ (entries.map Prod.fst).filter fun key => key.length < mountPrefix.length) from hfrom adapters.entries []
  intro entries
  induction entries with
  | nil => exact fun keys => congrArg Except.ok (List.append_nil keys).symm
  | cons entry entries ih =>
      intro keys
      rw [List.foldlM_cons, List.map_cons, List.filter_cons]
      refine (ih _).trans (congrArg Except.ok ?_)
      by_cases hshorter : entry.1.length < mountPrefix.length
      · simp [hshorter]
      · simp [hshorter]

theorem Native.keysToMove_error (error : MountError) (mountPrefix : List Char) {adapters : Adapters Adapter}
    (h : adapters.entries ≠ []) : Native.keysToMove (.error error) mountPrefix adapters = .error error := by
  obtain ⟨entry, entries, hentries⟩ := List.exists_cons_of_ne_nil h
  rw [Native.keysToMove, hentries]
  rfl

theorem Native.moveKeys_eq (keys : List (List Char)) (adapters : Adapters Adapter) :
    Native.moveKeys keys adapters = Adapters.moveKeys keys adapters := by
  induction keys generalizing adapters with
  | nil => rfl
  | cons key keys ih =>
      rw [Native.moveKeys, Adapters.moveKeys, IndexMap.moveToEnd]
      cases adapters.pop key with
      | none => rfl
      | some popped => exact ih _

theorem Native.inlineBaseMount_eq (adapters : Adapters Adapter) (mountPrefix : List Char) (adapter : Adapter) :
    Native.inlineBaseMount adapters mountPrefix adapter = adapters.mount mountPrefix adapter := by
  rw [Native.inlineBaseMount, Native.mountWith, Native.keysToMove_ok]
  exact Native.moveKeys_eq _ _

theorem Native.mount_bound {sessions : SessionsModule} (h : sessions.bindsLen = true) :
    Native.mount sessions = (Adapters.mount : Adapters Adapter → _) := by
  funext adapters mountPrefix adapter
  rw [Native.mount, SessionsModule.len, if_pos h]
  exact Native.inlineBaseMount_eq adapters mountPrefix adapter

theorem Native.mount_unbound {sessions : SessionsModule} (h : sessions.bindsLen ≠ true) (adapters : Adapters Adapter)
    (mountPrefix : List Char) (adapter : Adapter) : Native.mount sessions adapters mountPrefix adapter =
      (.error (.attributeError "len"), adapters.insert mountPrefix adapter) := by
  have hwritten : (adapters.insert mountPrefix adapter).entries ≠ [] := by
    intro hempty
    have hkeys := IndexMap.map_fst_write adapters.entries mountPrefix adapter
    rw [show IndexMap.write adapters.entries mountPrefix adapter = [] from hempty] at hkeys
    split at hkeys
    · rename_i hmem
      rw [← hkeys] at hmem
      cases hmem
    · exact List.append_ne_nil_of_right_ne_nil _ (List.cons_ne_nil _ _) hkeys.symm
  rw [Native.mount, Native.mountWith, SessionsModule.len, if_neg h, Native.keysToMove_error _ _ hwritten]

theorem Native.getAdapter_eq (lowering : Lowering) (adapters : Adapters Adapter) (url : List Char) :
    Native.getAdapter lowering adapters url = adapters.getAdapter lowering url := by
  rw [Native.getAdapter, Adapters.getAdapter]
  induction adapters.entries with
  | nil => rfl
  | cons entry entries ih =>
      rw [getAdapterFrom, List.find?_cons]
      by_cases hmatch : (lowering.lower entry.1).isPrefixOf (lowering.lower url) = true
      · simp [hmatch]
      · simpa [hmatch] using ih

/-- The adapter of the longest prefix that matches wins, after any mounts. The native operations choose the same one, and mount
the same if the module has a `len` of its own. -/
theorem longest_prefix_wins (lowering : Lowering) (sessions : SessionsModule) {start : Adapters Adapter}
    (hsorted : start.entries.Pairwise fun a b => b.1.length ≤ a.1.length) (mounts : List (List Char × Adapter)) :
    (∃ adapters, mountAll mount start mounts = (.ok (), adapters) ∧
      adapters.entries.Pairwise (fun a b => b.1.length ≤ a.1.length) ∧
      IndexMap.RankedWrites List.length (start.entries ++ mounts) adapters.entries ∧
      ∀ url : List Char, (∀ adapter, adapters.getAdapter lowering url = .ok adapter → ∃ mountPrefix,
          (mountPrefix, adapter) ∈ adapters.entries ∧ Matches lowering url mountPrefix ∧
            ∀ other ∈ adapters.entries, Matches lowering url other.1 → other.1.length ≤ mountPrefix.length) ∧
        (adapters.getAdapter lowering url = .error ⟨url⟩ ↔ ∀ entry ∈ adapters.entries, ¬Matches lowering url entry.1)) ∧
    (∀ url mountPrefix : List Char, (∀ c ∈ url, c.toNat < 128) ∧ (∀ c ∈ mountPrefix, c.toNat < 128) →
      (Matches lowering url mountPrefix ↔ mountPrefix.map Char.toLower <+: url.map Char.toLower)) ∧
    (∀ adapters : Adapters Adapter,
      (∀ mountPrefix adapter, Native.inlineBaseMount adapters mountPrefix adapter = adapters.mount mountPrefix adapter) ∧
      ∀ url, Native.getAdapter lowering adapters url = adapters.getAdapter lowering url) ∧
    (mountAll (Native.mount sessions) start mounts = mountAll mount start mounts ↔
      sessions.bindsLen = true ∨ mounts = []) := by
  refine ⟨?_, fun url mountPrefix hascii => matches_ascii lowering hascii.1 hascii.2,
    fun adapters => ⟨Native.inlineBaseMount_eq adapters, Native.getAdapter_eq lowering adapters⟩, ?_, ?_⟩
  · obtain ⟨adapters, hmounted, hranked⟩ := mountAll_ranked (IndexMap.rankedWrites_self hsorted) mounts
    exact ⟨adapters, hmounted, hranked.sorted, hranked, fun url =>
      ⟨fun _ h => getAdapterFrom_ok hranked.sorted h, getAdapterFrom_error⟩⟩
  · intro hsame
    by_contra hfails
    obtain ⟨hunbound, hmounts⟩ := not_or.mp hfails
    obtain ⟨item, mounts, rfl⟩ := List.exists_cons_of_ne_nil hmounts
    obtain ⟨mounted, hmounted, -⟩ := mountAll_ranked (IndexMap.rankedWrites_self hsorted) (item :: mounts)
    rw [hmounted, mountAll, Native.mount_unbound hunbound] at hsame
    cases hsame
  · rintro (hbound | rfl)
    · rw [Native.mount_bound hbound]
    · rfl

/-- The module as it is written has no `len`: the new prefix stays behind the shorter one. -/
theorem native_mount_without_len : ∃ session : Adapters Nat, session.entries = [("https://".toList, 1)] ∧
    (Native.mount {} session "http://api".toList 2).1 = .error (.attributeError "len") ∧
    (Native.mount {} session "http://api".toList 2).2.entries = [("https://".toList, 1), ("http://api".toList, 2)] ∧
    (session.mount "http://api".toList 2).1 = .ok () ∧
    (session.mount "http://api".toList 2).2.entries = [("http://api".toList, 2), ("https://".toList, 1)] :=
  ⟨IndexMap.empty.insert "https://".toList 1, by decide, rfl, by decide, rfl, by decide⟩

/-- `str.lower` on ASCII. -/
def asciiLowering : Lowering := ⟨fun value => value.map Char.toLower, fun _ _ => rfl⟩

/-- The mounts of a new session, then two more, one of them of a prefix that is there. -/
def sessionMounts : List (List Char × Nat) :=
  [("https://".toList, 1), ("http://".toList, 2), ("http://api".toList, 3), ("http://".toList, 4)]

theorem longest_prefix_wins_session : ∃ adapters : Adapters Nat,
    mountAll mount IndexMap.empty sessionMounts = (.ok (), adapters) ∧
    mountAll (Native.mount ⟨true⟩) IndexMap.empty sessionMounts = (.ok (), adapters) ∧
    adapters.entries = [("http://api".toList, 3), ("https://".toList, 1), ("http://".toList, 4)] ∧
    adapters.entries.Pairwise (fun a b => b.1.length ≤ a.1.length) ∧
    adapters.getAdapter asciiLowering "HTTP://API/".toList = .ok 3 ∧
    adapters.getAdapter asciiLowering "ftp://".toList = .error ⟨"ftp://".toList⟩ := by
  have hempty : (IndexMap.empty : Adapters Nat).entries.Pairwise fun a b => b.1.length ≤ a.1.length := List.Pairwise.nil
  obtain ⟨⟨adapters, hmounted, hsorted, -, hchoice⟩, -, -, hnative⟩ :=
    longest_prefix_wins asciiLowering ⟨true⟩ hempty sessionMounts
  have hentries : adapters.entries = [("http://api".toList, 3), ("https://".toList, 1), ("http://".toList, 4)] := by
    have hrun : (mountAll mount IndexMap.empty sessionMounts).2.entries =
        [("http://api".toList, 3), ("https://".toList, 1), ("http://".toList, 4)] := by decide
    rw [hmounted] at hrun
    exact hrun
  refine ⟨adapters, hmounted, (hnative.mpr (.inl rfl)).trans hmounted, hentries, hsorted, ?_, (hchoice _).2.mpr ?_⟩
  · rw [getAdapter, hentries]
    rfl
  · rw [hentries]
    simp only [Matches]
    decide

end Adapters

end RequestsNative.Python
