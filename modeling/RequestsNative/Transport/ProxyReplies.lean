import RequestsNative.Transport.ProxyTarget

/-!
# The replies that open a tunnel

Which bytes of a SOCKS proxy grant the connection, and that the handshakes of `proxy.rs` succeed on exactly these
and read exactly these, so that the tunnel starts with the next byte. The other half of a handshake is the client's
own: the texts of the proxy URL have to decode, username, password and host have to fit, and the stream has to take
what is written.
-/

namespace RequestsNative.Transport

open RequestsNative.Lib

/-! ### The replies -/

/-- The bound address of a reply, by its type. -/
inductive BoundAddress : UInt8 → Bytes → Prop
  | v4 {octets : Bytes} : octets.length = 4 → BoundAddress 1 octets
  | name {length : UInt8} {name : Bytes} : name.length = length.toNat → BoundAddress 3 (length :: name)
  | v6 {octets : Bytes} : octets.length = 16 → BoundAddress 4 octets

/-- A reply to a request that grants the connection. -/
inductive GrantedReply : Bytes → Prop
  | mk {reserved addressType high low : UInt8} {address : Bytes} : BoundAddress addressType address →
      GrantedReply (5 :: 0 :: reserved :: addressType :: address ++ [high, low])

/-- The method a SOCKS5 proxy selects, and its verdict on the password if that is the method. -/
inductive MethodReplies (offered : Prop) : UInt8 → Bytes → Prop
  | noAuthentication : MethodReplies offered 0 [5, 0]
  | password : offered → MethodReplies offered 2 [5, 2, 1, 0]

/-- Everything a SOCKS5 proxy answers until the tunnel is open. -/
def Socks5Replies (offered : Prop) (method : UInt8) (replies : Bytes) : Prop :=
  ∃ selection reply, MethodReplies offered method selection ∧ GrantedReply reply ∧ replies = selection ++ reply

/-- The answer of a SOCKS4 proxy that grants the connection. -/
def Socks4Reply (reply : Bytes) : Prop := ∃ ignored : Bytes, ignored.length = 6 ∧ reply = 0 :: 90 :: ignored

/-! ### What the client has to say -/

section Client

variable {reader : AuthorityReader} (parseUrl : ProxyUrlParser) (resolve : Resolver)

/-- The username and the password of the proxy URL. -/
def socks5Login (proxy : Proxy reader) : Except Error (Bytes × Bytes) := do
  let parsed ← Proxy.parse parseUrl proxy
  let username ← Proxy.percentDecode parsed.username
  let password ← Proxy.percentDecode (parsed.password.getD [])
  return (username, password)

/-- Both credentials are non-empty, which is when they are offered. -/
def Offered (login : Bytes × Bytes) : Prop := login.1 ≠ [] ∧ login.2 ≠ []

/-- The subnegotiation of the method; only the password has one. -/
def socks5Subnegotiation (login : Bytes × Bytes) (method : UInt8) : Except Error Bytes :=
  if method = 2 then Proxy.socks5Credentials login.1 login.2 else .ok []

/-- Everything that is written to a proxy that selects `method`. -/
def socks5Says (login : Bytes × Bytes) (method : UInt8) (host : Bytes) (port : Nat) (remoteDns : Bool) :
    Except Error Bytes := do
  let credentials ← socks5Subnegotiation login method
  let request ← Proxy.socks5Request resolve host port remoteDns
  return Proxy.socks5Methods login.1 login.2 ++ (credentials ++ request)

/-- The SOCKS4 request, which is all that is written. -/
def socks4Says (proxy : Proxy reader) (host : Bytes) (port : Nat) (remoteDns : Bool) : Except Error Bytes := do
  let parsed ← Proxy.parse parseUrl proxy
  let user ← Proxy.percentDecode parsed.username
  if user.contains 0 || host.contains 0 then .error (.proxy (text "SOCKS4 credentials or host contain NUL"))
  else
    let address ← Proxy.socks4Address resolve host port remoteDns
    return [4, 1] ++ Proxy.toBeBytes port ++ address.octets ++ user ++ [0] ++ if remoteDns then host ++ [0] else []

end Client

/-! ### What is exchanged in a handshake that succeeds -/

theorem replyAddressLength_succeeds (addressType : UInt8) :
    Talk.Succeeds (Proxy.replyAddressLength addressType) fun n sent read => sent = [] ∧
      ((addressType = 1 ∧ n = 4 ∧ read = []) ∨ (addressType = 4 ∧ n = 16 ∧ read = []) ∨
        (addressType = 3 ∧ ∃ length : UInt8, n = length.toNat ∧ read = [length])) := by
  have hlength := (Talk.succeeds_readExact (E := Error) (fun fault => .proxy (fault.getD (text "early eof"))) 1).bind
    fun length => Talk.succeeds_pure (length.getD 0 0).toNat
  refine ((Talk.succeeds_pure 4).ite ((Talk.succeeds_pure 16).ite (hlength.ite (Talk.succeeds_fail _)))).congr ?_
  intro n sent read
  constructor
  · rintro (⟨htype, rfl, rfl, rfl⟩ | ⟨-, ⟨htype, rfl, rfl, rfl⟩ | ⟨-, ⟨htype, hread⟩ | ⟨-, hfalse⟩⟩⟩)
    · exact ⟨rfl, .inl ⟨htype, rfl, rfl⟩⟩
    · exact ⟨rfl, .inr (.inl ⟨htype, rfl, rfl⟩)⟩
    · obtain ⟨bytes, _, _, ⟨rfl, rfl, hone⟩, _, _, ⟨rfl, rfl, rfl⟩, rfl, rfl⟩ := hread
      obtain ⟨length, rfl⟩ := List.length_eq_one_iff.mp hone
      exact ⟨rfl, .inr (.inr ⟨htype, length, rfl, rfl⟩)⟩
    · exact hfalse.elim
  · rintro ⟨rfl, ⟨rfl, rfl, rfl⟩ | ⟨rfl, rfl, rfl⟩ | ⟨rfl, length, rfl, rfl⟩⟩
    · exact .inl ⟨rfl, rfl, rfl, rfl⟩
    · exact .inr ⟨by decide, .inl ⟨rfl, rfl, rfl, rfl⟩⟩
    · refine .inr ⟨by decide, .inr ⟨by decide, .inl ⟨rfl, ?_⟩⟩⟩
      exact ⟨[length], [], [length], ⟨rfl, rfl, rfl⟩, [], [], ⟨rfl, rfl, rfl⟩, rfl, rfl⟩

/-- The address with its length, and the port after it. -/
theorem boundAddress_iff {addressType : UInt8} {read : Bytes} :
    (∃ n heard more, ((addressType = 1 ∧ n = 4 ∧ heard = []) ∨ (addressType = 4 ∧ n = 16 ∧ heard = []) ∨
        (addressType = 3 ∧ ∃ length : UInt8, n = length.toNat ∧ heard = [length])) ∧
      more.length = n + 2 ∧ read = heard ++ more) ↔
      ∃ address high low, BoundAddress addressType address ∧ read = address ++ [high, low] := by
  constructor
  · rintro ⟨n, heard, more, htype, hlength, rfl⟩
    obtain ⟨port, hport, hsplit⟩ : ∃ port : Bytes, port.length = 2 ∧ more = more.take n ++ port :=
      ⟨more.drop n, by rw [List.length_drop]; omega, (List.take_append_drop n more).symm⟩
    obtain ⟨high, low, rfl⟩ := List.length_eq_two.mp hport
    have htake : (more.take n).length = n := List.length_take_of_le (by omega)
    generalize more.take n = address at hsplit htake
    subst hsplit
    rcases htype with ⟨rfl, rfl, rfl⟩ | ⟨rfl, rfl, rfl⟩ | ⟨rfl, length, rfl, rfl⟩
    · exact ⟨address, high, low, .v4 htake, rfl⟩
    · exact ⟨address, high, low, .v6 htake, rfl⟩
    · exact ⟨length :: address, high, low, .name htake, rfl⟩
  · rintro ⟨address, high, low, hbound, rfl⟩
    cases hbound with
    | v4 hlength => exact ⟨4, [], _, .inl ⟨rfl, rfl, rfl⟩, by simp [hlength], rfl⟩
    | v6 hlength => exact ⟨16, [], _, .inr (.inl ⟨rfl, rfl, rfl⟩), by simp [hlength], rfl⟩
    | @name length name hname => exact ⟨_, [length], name ++ [high, low], .inr (.inr ⟨rfl, length, rfl, rfl⟩), by simp [hname], rfl⟩

theorem socks5Reply_succeeds : Talk.Succeeds Proxy.socks5Reply fun _ sent read => sent = [] ∧ GrantedReply read := by
  have hrest : ∀ addressType, Talk.Succeeds _ _ := fun addressType =>
    (replyAddressLength_succeeds addressType).bind fun addressLength =>
      (Talk.succeeds_readExact (E := Error) (fun fault => .proxy (fault.getD (text "early eof"))) (addressLength + 2)).bind
        fun _ => Talk.succeeds_pure ()
  refine ((Talk.succeeds_readExact _ 4).bind fun response =>
    (Talk.succeeds_fail _).ite (hrest (response.getD 3 0))).congr ?_
  intro u sent read
  constructor
  · rintro ⟨_, _, response, ⟨rfl, rfl, hfour⟩, rest, more, ⟨-, hfalse⟩ | ⟨hgranted, hbound⟩, rfl, rfl⟩
    · exact hfalse.elim
    · obtain ⟨n, _, heard, ⟨rfl, htype⟩, _, _, ⟨_, _, _, ⟨rfl, rfl, hlength⟩, _, _, ⟨-, rfl, rfl⟩, rfl, rfl⟩, rfl, rfl⟩ := hbound
      obtain ⟨version, code, reserved, addressType, rfl⟩ : ∃ a b c d : UInt8, response = [a, b, c, d] := by
        match response, hfour with
        | [a, b, c, d], _ => exact ⟨a, b, c, d, rfl⟩
      obtain ⟨address, high, low, hbound, hread⟩ := boundAddress_iff.mp ⟨n, heard, _, htype, hlength, rfl⟩
      obtain ⟨rfl, rfl⟩ : version = 5 ∧ code = 0 := by simpa using hgranted
      refine ⟨rfl, ?_⟩
      rw [List.append_nil, hread]
      exact .mk hbound
  · rintro ⟨rfl, @⟨reserved, addressType, high, low, address, hbound⟩⟩
    obtain ⟨n, heard, more, htype, hlength, hread⟩ := boundAddress_iff.mpr ⟨address, high, low, hbound, rfl⟩
    refine ⟨[5, 0, reserved, addressType], [], _, ⟨rfl, rfl, rfl⟩, [], address ++ [high, low], .inr ⟨by simp, ?_⟩, rfl, rfl⟩
    exact ⟨n, [], heard, ⟨rfl, htype⟩, [], more, ⟨more, [], more, ⟨rfl, rfl, hlength⟩, [], [], ⟨rfl, rfl, rfl⟩, rfl,
      (List.append_nil _).symm⟩, rfl, hread⟩

theorem socks5Negotiate_succeeds (username password : Bytes) :
    Talk.Succeeds (Proxy.socks5Negotiate username password) fun _ sent read =>
      ∃ method credentials, MethodReplies (Offered (username, password)) method read ∧
        socks5Subnegotiation (username, password) method = .ok credentials ∧
          sent = Proxy.socks5Methods username password ++ credentials := by
  have hpassword := (Talk.succeeds_lift (Proxy.socks5Credentials username password)).bind fun credentials =>
    (Talk.succeeds_writeAll Error.proxy credentials).bind fun _ =>
      (Talk.succeeds_readExact (E := Error) (fun fault => .proxy (fault.getD (text "early eof"))) 2).bind fun response =>
        (Talk.succeeds_fail (.proxy (text "SOCKS5 username/password authentication failed"))).ite
          (p := response ≠ [1, 0]) (Talk.succeeds_pure ())
  refine ((Talk.succeeds_writeAll _ _).bind fun _ => (Talk.succeeds_readExact _ 2).bind fun method =>
    (Talk.succeeds_fail _).ite (hpassword.ite (Talk.succeeds_pure ()))).congr ?_
  intro u sent read
  constructor
  · rintro ⟨_, _, _, ⟨rfl, rfl⟩, _, _, ⟨_, _, method, ⟨rfl, rfl, htwo⟩, rest, more, hselected, rfl, rfl⟩, rfl, rfl⟩
    obtain ⟨version, selected, rfl⟩ := List.length_eq_two.mp htwo
    obtain ⟨-, hfalse⟩ | ⟨haccepted, hselected⟩ := hselected
    · exact hfalse.elim
    obtain ⟨rfl, hmethod⟩ : version = 5 ∧ (selected ≠ 0 → ¬(username = [] ∨ password = []) ∧ selected = 2) := by
      simpa using haccepted
    obtain ⟨hpassword, hverdict⟩ | ⟨hnone, -, rfl, rfl⟩ := hselected
    · obtain rfl : selected = 2 := hpassword
      have hoffered := not_or.mp (hmethod (by decide)).1
      obtain ⟨_, _, _, ⟨hcredentials, rfl, rfl⟩, _, _, ⟨_, credentials, _, ⟨rfl, rfl⟩, _, _,
        ⟨_, _, response, ⟨rfl, rfl, -⟩, _, _, ⟨-, hfalse⟩ | ⟨hresponse, -, rfl, rfl⟩, rfl, rfl⟩, rfl, rfl⟩, rfl, rfl⟩ := hverdict
      · exact hfalse.elim
      · obtain rfl := not_not.mp hresponse
        refine ⟨2, credentials, .password hoffered, hcredentials, ?_⟩
        simp only [List.nil_append, List.append_nil]
    · obtain rfl : selected = 0 := by
        by_contra hzero
        exact hnone (hmethod hzero).2
      exact ⟨0, [], .noAuthentication, rfl, rfl⟩
  · rintro ⟨method, credentials, hreplies, hcredentials, rfl⟩
    refine ⟨(), _, [], ⟨rfl, rfl⟩, credentials, read, ?_, rfl, rfl⟩
    cases hreplies with
    | noAuthentication =>
        cases hcredentials
        exact ⟨[5, 0], [], [5, 0], ⟨rfl, rfl, rfl⟩, [], [], .inr ⟨by simp, .inr ⟨by simp, rfl, rfl, rfl⟩⟩, rfl, rfl⟩
    | password hoffered =>
        refine ⟨[5, 2], [], [5, 2], ⟨rfl, rfl, rfl⟩, credentials, [1, 0], .inr ⟨?_, .inl ⟨rfl, ?_⟩⟩, rfl, rfl⟩
        · simp [hoffered.1, hoffered.2]
        · refine ⟨credentials, [], [], ⟨hcredentials, rfl, rfl⟩, credentials, [1, 0], ?_, rfl, rfl⟩
          refine ⟨(), credentials, [], ⟨rfl, rfl⟩, [], [1, 0], ?_, (List.append_nil _).symm, rfl⟩
          exact ⟨[1, 0], [], [1, 0], ⟨rfl, rfl, rfl⟩, [], [], .inr ⟨by simp, rfl, rfl, rfl⟩, rfl, rfl⟩

section Handshakes

variable {reader : AuthorityReader} {parseUrl : ProxyUrlParser} {resolve : Resolver}

theorem socks5Connect_eq (proxy : Proxy reader) (host : Bytes) (port : Nat) (remoteDns : Bool) :
    Proxy.socks5Connect parseUrl resolve proxy host port remoteDns = (do
      let login ← Talk.lift (socks5Login parseUrl proxy)
      Proxy.socks5Negotiate login.1 login.2
      let request ← Talk.lift (Proxy.socks5Request resolve host port remoteDns)
      Proxy.writeAll request
      Proxy.socks5Reply) := by
  unfold Proxy.socks5Connect socks5Login
  simp only [Talk.lift_bind]
  rfl

theorem socks5Connect_succeeds (proxy : Proxy reader) (host : Bytes) (port : Nat) (remoteDns : Bool) :
    Talk.Succeeds (Proxy.socks5Connect parseUrl resolve proxy host port remoteDns) fun _ sent read =>
      ∃ login method, socks5Login parseUrl proxy = .ok login ∧ Socks5Replies (Offered login) method read ∧
        socks5Says resolve login method host port remoteDns = .ok sent := by
  rw [socks5Connect_eq]
  refine ((Talk.succeeds_lift _).bind fun (login : Bytes × Bytes) => (socks5Negotiate_succeeds login.1 login.2).bind fun _ =>
    (Talk.succeeds_lift _).bind fun request => (Talk.succeeds_writeAll _ request).bind fun _ =>
      socks5Reply_succeeds).congr ?_
  intro u sent read
  constructor
  · rintro ⟨login, _, _, ⟨hlogin, rfl, rfl⟩, _, _, ⟨_, _, selection, ⟨method, credentials, hselection, hcredentials, rfl⟩,
      _, _, ⟨request, _, _, ⟨hrequest, rfl, rfl⟩, _, _, ⟨_, _, _, ⟨rfl, rfl⟩, _, _, ⟨rfl, hreply⟩, rfl, rfl⟩, rfl, rfl⟩,
        rfl, rfl⟩, rfl, rfl⟩
    refine ⟨login, method, hlogin, ⟨selection, _, hselection, hreply, rfl⟩, ?_⟩
    refine bind_eq_ok.mpr ⟨credentials, hcredentials, bind_eq_ok.mpr ⟨_, hrequest, ?_⟩⟩
    simp [pure, Except.pure]
  · rintro ⟨login, method, hlogin, ⟨selection, reply, hselection, hreply, rfl⟩, hsaid⟩
    obtain ⟨credentials, hcredentials, hsaid⟩ := bind_eq_ok.mp hsaid
    obtain ⟨request, hrequest, hsaid⟩ := bind_eq_ok.mp hsaid
    cases hsaid
    refine ⟨login, [], [], ⟨hlogin, rfl, rfl⟩, _, _, ?_, rfl, rfl⟩
    refine ⟨(), _, selection, ⟨method, credentials, hselection, hcredentials, rfl⟩, request, reply, ?_, ?_, rfl⟩
    · refine ⟨request, [], [], ⟨hrequest, rfl, rfl⟩, request, reply, ?_, rfl, rfl⟩
      exact ⟨(), request, [], ⟨rfl, rfl⟩, [], reply, ⟨rfl, hreply⟩, (List.append_nil _).symm, rfl⟩
    · exact (List.append_assoc _ _ _).symm

theorem socks4Connect_eq (proxy : Proxy reader) (host : Bytes) (port : Nat) (remoteDns : Bool) :
    Proxy.socks4Connect parseUrl resolve proxy host port remoteDns = (do
      let request ← Talk.lift (socks4Says parseUrl resolve proxy host port remoteDns)
      Proxy.writeAll request
      let response ← Proxy.readExact 8
      if response.getD 0 0 ≠ 0 ∨ response.getD 1 0 ≠ 90 then
        Talk.fail (.proxy (text "SOCKS4 proxy rejected connection with code " ++ decimal (response.getD 1 0).toNat))
      else pure ()) := by
  unfold Proxy.socks4Connect socks4Says
  simp only [Talk.lift_bind]
  congr 1
  funext parsed
  congr 1
  funext user
  split
  · rfl
  · rw [Talk.lift_bind]
    rfl

theorem socks4Connect_succeeds (proxy : Proxy reader) (host : Bytes) (port : Nat) (remoteDns : Bool) :
    Talk.Succeeds (Proxy.socks4Connect parseUrl resolve proxy host port remoteDns) fun _ sent read =>
      socks4Says parseUrl resolve proxy host port remoteDns = .ok sent ∧ Socks4Reply read := by
  rw [socks4Connect_eq]
  refine ((Talk.succeeds_lift _).bind fun request => (Talk.succeeds_writeAll _ request).bind fun _ =>
    (Talk.succeeds_readExact _ 8).bind fun response => (Talk.succeeds_fail _).ite (Talk.succeeds_pure ())).congr ?_
  intro u sent read
  constructor
  · rintro ⟨request, _, _, ⟨hrequest, rfl, rfl⟩, _, _, ⟨_, _, _, ⟨rfl, rfl⟩, _, _, ⟨_, _, response, ⟨rfl, rfl, height⟩, _, _,
      ⟨-, hfalse⟩ | ⟨hgranted, -, rfl, rfl⟩, rfl, rfl⟩, rfl, rfl⟩, rfl, rfl⟩
    · exact hfalse.elim
    · simp only [List.nil_append, List.append_nil]
      refine ⟨hrequest, ?_⟩
      match response, height with
      | version :: code :: ignored, height =>
          obtain ⟨rfl, rfl⟩ : version = 0 ∧ code = 90 := by simpa using hgranted
          exact ⟨ignored, by simpa using height, rfl⟩
  · rintro ⟨hsaid, ignored, hsix, rfl⟩
    refine ⟨sent, [], [], ⟨hsaid, rfl, rfl⟩, sent, 0 :: 90 :: ignored, ?_, rfl, rfl⟩
    refine ⟨(), sent, [], ⟨rfl, rfl⟩, [], 0 :: 90 :: ignored, ?_, (List.append_nil _).symm, rfl⟩
    exact ⟨0 :: 90 :: ignored, [], _, ⟨rfl, rfl, by simp [hsix]⟩, [], [], .inr ⟨by simp, rfl, rfl, rfl⟩, rfl,
      (List.append_nil _).symm⟩

/-! ### Credentials that are not offered -/

/-- Without credentials the greeting is all that is written before the request, and only the method without
authentication gets further. -/
theorem socks5Negotiate_unoffered {username password : Bytes} (hnone : ¬Offered (username, password)) {wire wire' : Wire}
    {result : Except Error Unit} (h : Proxy.socks5Negotiate username password wire = (result, wire')) :
    ∃ sent, wire'.written = wire.written ++ sent ∧ sent <+: [5, 1, 0] ∧
      ((∃ u, result = .ok u) → sent = [5, 1, 0] ∧ wire.incoming[1]? ≠ some 2) := by
  have hmethods : Proxy.socks5Methods username password = [5, 1, 0] := if_neg hnone
  unfold Proxy.socks5Negotiate at h
  rw [hmethods] at h
  obtain ⟨error, hwrite, rfl⟩ | ⟨_, greeted, hwrite, h⟩ := Talk.bind_run h
  · obtain ⟨-, ⟨hok, -⟩ | ⟨_, part, -, hpart, hwritten, -⟩⟩ := Talk.writeAll_run hwrite
    · cases hok
    · exact ⟨part, hwritten, hpart, nofun⟩
  obtain ⟨hincoming, ⟨-, hwritten⟩ | ⟨_, _, herror, -⟩⟩ := Talk.writeAll_run hwrite
  swap
  · cases herror
  obtain ⟨error, hread, rfl⟩ | ⟨method, selected, hread, h⟩ := Talk.bind_run h
  · exact ⟨_, (Talk.readExact_run hread).1.trans hwritten, List.prefix_rfl, nofun⟩
  obtain ⟨hsilent, ⟨_, heq, hmethod, hlength⟩ | ⟨_, herror⟩⟩ := Talk.readExact_run hread
  swap
  · cases herror
  cases heq
  rw [hwritten] at hsilent
  obtain ⟨version, chosen, rfl⟩ := List.length_eq_two.mp hlength
  split at h
  · cases h
    exact ⟨_, hsilent, List.prefix_rfl, nofun⟩
  -- what is left is the method without authentication
  rename_i haccepted
  obtain rfl : chosen = 0 := by
    by_contra hzero
    exact haccepted (.inr ⟨hzero, .inl (or_iff_not_and_not.mpr hnone)⟩)
  cases h
  refine ⟨_, hsilent, List.prefix_rfl, fun _ => ⟨rfl, ?_⟩⟩
  rw [← hincoming, hmethod]
  exact nofun

theorem socks5Connect_unoffered {proxy : Proxy reader} {login : Bytes × Bytes} (hlogin : socks5Login parseUrl proxy = .ok login)
    (hnone : ¬Offered login) {host : Bytes} {port : Nat} {remoteDns : Bool} {wire wire' : Wire} {result : Except Error Unit}
    (h : Proxy.socks5Connect parseUrl resolve proxy host port remoteDns wire = (result, wire')) :
    ∃ sent, wire'.written = wire.written ++ sent ∧
      SendsSocks5 (Proxy.socks5Request resolve host port remoteDns) [5, 1, 0] sent result ∧
        (wire.incoming[1]? = some 2 → sent <+: [5, 1, 0] ∧ ∃ error, result = .error error) := by
  rw [socks5Connect_eq, hlogin, Talk.lift_ok] at h
  obtain ⟨error, hnegotiate, rfl⟩ | ⟨u, negotiated, hnegotiate, h⟩ := Talk.bind_run h
  · obtain ⟨sent, hwritten, hfront, -⟩ := socks5Negotiate_unoffered hnone hnegotiate
    exact ⟨sent, hwritten, sendsSocks5_early hfront error, fun _ => ⟨hfront, error, rfl⟩⟩
  obtain ⟨sent, hwritten, -, hall⟩ := socks5Negotiate_unoffered hnone hnegotiate
  obtain ⟨rfl, hmethod⟩ := hall ⟨u, rfl⟩
  obtain ⟨error, -, rfl, rfl⟩ | ⟨request, hrequest, h⟩ := Talk.lift_run h
  · exact ⟨_, hwritten, sendsSocks5_early List.prefix_rfl error, fun hasked => absurd hasked hmethod⟩
  obtain ⟨command, hcommand, hfront, hwhole⟩ := Talk.writeAll_then_silent (fun _ => silent_socks5Reply) h
  refine ⟨[5, 1, 0] ++ command, by rw [hcommand, hwritten, List.append_assoc], ?_, fun hasked => absurd hasked hmethod⟩
  rw [hrequest]
  exact ⟨(List.prefix_append_right_inj _).mpr hfront, fun hok => by rw [hwhole (.inl ⟨_, hok⟩)]⟩

end Handshakes

/-! ### The tunnel -/

/-- The handshake succeeds and leaves `rest` to be read: that is the tunnel. -/
def Opened (handshake : ProxyTalk Unit) (wire : Wire) (rest : Bytes) : Prop :=
  ∃ wire', handshake wire = (.ok (), wire') ∧ wire'.incoming = rest

theorem opened_iff {handshake : ProxyTalk Unit} {P : Unit → Bytes → Bytes → Prop} (h : Talk.Succeeds handshake P)
    {wire : Wire} {rest : Bytes} :
    Opened handshake wire rest ↔
      ∃ sent replies, P () sent replies ∧ wire.Takes sent.length ∧ wire.incoming = replies ++ rest := by
  constructor
  · rintro ⟨wire', hrun, rfl⟩
    obtain ⟨sent, read, hP, hexchange⟩ := (h wire () wire').mp hrun
    exact ⟨sent, read, hP, hexchange.taken, hexchange.arrived⟩
  · rintro ⟨sent, replies, hP, htakes, harrived⟩
    obtain ⟨wire', hexchange, hrest⟩ := Wire.exists_exchange htakes harrived
    exact ⟨wire', (h wire () wire').mpr ⟨sent, replies, hP, hexchange⟩, hrest⟩

/-- Both SOCKS handshakes open a tunnel exactly if the client can say what it has to and the proxy's bytes start with
replies that grant the connection, and the tunnel is what follows these. Credentials that are not offered are never
written, and the method that asks for them is refused. -/
theorem socks_replies_exact {reader : AuthorityReader} (parseUrl : ProxyUrlParser) (resolve : Resolver) (proxy : Proxy reader)
    (host : Bytes) (port : Nat) (remoteDns : Bool) (wire : Wire) :
    (∀ rest, Opened (Proxy.socks5Connect parseUrl resolve proxy host port remoteDns) wire rest ↔
      ∃ login method sent replies, socks5Login parseUrl proxy = .ok login ∧
        socks5Says resolve login method host port remoteDns = .ok sent ∧ wire.Takes sent.length ∧
          Socks5Replies (Offered login) method replies ∧ wire.incoming = replies ++ rest) ∧
    (∀ rest, Opened (Proxy.socks4Connect parseUrl resolve proxy host port remoteDns) wire rest ↔
      ∃ sent reply, socks4Says parseUrl resolve proxy host port remoteDns = .ok sent ∧ wire.Takes sent.length ∧
        Socks4Reply reply ∧ wire.incoming = reply ++ rest) ∧
    ∀ login result wire', socks5Login parseUrl proxy = .ok login → ¬Offered login →
      Proxy.socks5Connect parseUrl resolve proxy host port remoteDns wire = (result, wire') →
        ∃ sent, wire'.written = wire.written ++ sent ∧
          SendsSocks5 (Proxy.socks5Request resolve host port remoteDns) [5, 1, 0] sent result ∧
            (wire.incoming[1]? = some 2 → sent <+: [5, 1, 0] ∧ ∃ error, result = .error error) := by
  refine ⟨fun rest => ?_, fun rest => ?_, fun login result wire' hlogin hnone hrun => ?_⟩
  · rw [opened_iff (socks5Connect_succeeds proxy host port remoteDns)]
    constructor
    · rintro ⟨sent, replies, ⟨login, method, hlogin, hreplies, hsaid⟩, htakes, harrived⟩
      exact ⟨login, method, sent, replies, hlogin, hsaid, htakes, hreplies, harrived⟩
    · rintro ⟨login, method, sent, replies, hlogin, hsaid, htakes, hreplies, harrived⟩
      exact ⟨sent, replies, ⟨login, method, hlogin, hreplies, hsaid⟩, htakes, harrived⟩
  · rw [opened_iff (socks4Connect_succeeds proxy host port remoteDns)]
    constructor
    · rintro ⟨sent, reply, ⟨hsaid, hreply⟩, htakes, harrived⟩
      exact ⟨sent, reply, hsaid, htakes, hreply, harrived⟩
    · rintro ⟨sent, reply, hsaid, htakes, hreply, harrived⟩
      exact ⟨sent, reply, ⟨hsaid, hreply⟩, htakes, harrived⟩
  · exact socks5Connect_unoffered hlogin hnone hrun

private def socksUri : Uri httpAuthority := ⟨some .http, some ⟨text "proxy.test:1080", by decide⟩, some ⟨text "/", none⟩⟩

/-- A proxy URL without credentials. -/
private def readPlainUrl : ProxyUrlParser := fun url =>
  if url = socksUri.display then .ok ⟨[], none⟩ else .error (text "relative URL without a base")

private def noResolver : Resolver := fun _ _ => .error (text "Name or service not known")

/-- A proxy that asks for a password no one has. -/
private def askingWire : Wire := ⟨[5, 2], none, [], none, none⟩

theorem socks_replies_exact_unoffered :
    ∃ sent, (Proxy.socks5Connect readPlainUrl noResolver (.socks5 socksUri true) (text "origin.test") 443 true
        askingWire).2.written = [] ++ sent ∧ sent <+: [5, 1, 0] ∧
      ∃ error, (Proxy.socks5Connect readPlainUrl noResolver (.socks5 socksUri true) (text "origin.test") 443 true
        askingWire).1 = .error error := by
  obtain ⟨sent, hwritten, -, hasked⟩ := (socks_replies_exact readPlainUrl noResolver (.socks5 socksUri true)
    (text "origin.test") 443 true askingWire).2.2 ([], []) _ _ (by decide) (fun hoffered => hoffered.1 rfl) rfl
  obtain ⟨hfront, herror⟩ := hasked rfl
  exact ⟨sent, hwritten, hfront, herror⟩

/-- A username of 256 bytes. -/
private def readLongUrl : ProxyUrlParser := fun url =>
  if url = socksUri.display then .ok ⟨List.replicate 256 97, some (text "secret")⟩
  else .error (text "relative URL without a base")

private def grantingWire : Wire := ⟨[5, 2, 1, 0, 5, 0, 0, 1, 0, 0, 0, 0, 0, 0], none, [], none, none⟩

/-- The proxy grants everything, but the username is longer than the protocol can carry. -/
theorem long_username_not_sent :
    socks5Login readLongUrl (.socks5 socksUri true) = .ok (List.replicate 256 97, text "secret") ∧
    Offered (List.replicate 256 97, text "secret") ∧
    Socks5Replies (Offered (List.replicate 256 97, text "secret")) 2 grantingWire.incoming ∧ grantingWire.room = none ∧
    ∃ error, (Proxy.socks5Connect readLongUrl noResolver (.socks5 socksUri true) (text "origin.test") 443 true
      grantingWire).1 = .error error := by
  have hoffered : Offered (List.replicate 256 97, text "secret") := ⟨by decide, by decide⟩
  refine ⟨by decide +kernel, hoffered, ?_, rfl, .proxy (text "SOCKS5 username exceeds 255 bytes"), by decide +kernel⟩
  exact ⟨[5, 2, 1, 0], _, .password hoffered, @GrantedReply.mk 0 1 0 0 [0, 0, 0, 0] (.v4 rfl), rfl⟩

end RequestsNative.Transport
