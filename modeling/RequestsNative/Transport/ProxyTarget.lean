import RequestsNative.Transport.Proxy

/-!
# The target a proxy is asked for

What a proxy reads in the requests of `proxy.rs`, by the rules of its protocol: the authority of a `CONNECT`
request and of its `Host` header, and the destination of a SOCKS5 request. The host of a URI keeps the brackets
of an IPv6 address. The encoders take a host with a colon for an address without brackets, and put it in
brackets again, so the proxy is asked for the right target exactly if the host has no colon.
-/

namespace RequestsNative.Transport

open RequestsNative.Lib

/-- What `http::Uri::host` returns: an address in brackets, or a text without a colon. -/
structure UriHost where
  bytes : Bytes
  form : (∃ inner, bytes = 91 :: inner ++ [93] ∧ 93 ∉ inner) ∨ (58 ∉ bytes ∧ bytes.head? ≠ some 91)
  visible : ∀ b ∈ bytes, b ≠ 32 ∧ b ≠ 13

theorem httpHost_form (authority : Bytes) :
    (∃ inner, httpHost authority = 91 :: inner ++ [93] ∧ 93 ∉ inner) ∨
      (58 ∉ httpHost authority ∧ (httpHost authority).head? ≠ some 91) := by
  unfold httpHost
  simp only
  cases hhost : afterUserinfo authority with
  | nil => exact .inr ⟨nofun, nofun⟩
  | cons b rest =>
      by_cases hbracket : b = 91
      · refine .inl ⟨rest.takeWhile (· != 93), by simp [hbracket], ?_⟩
        intro hmem
        cases List.mem_takeWhile_imp hmem
      · refine .inr ⟨?_, ?_⟩ <;> rw [if_neg (by simpa using hbracket)]
        · intro hmem
          cases List.mem_takeWhile_imp hmem
        · by_cases hcolon : b = 58
          · simp [hcolon]
          · simpa [hcolon] using hbracket

theorem step_visible {before scan : AuthorityScan} {b : UInt8} (h : before.step b = some scan) : b ≠ 32 ∧ b ≠ 13 := by
  have hnone : ∀ c ∈ [32, 13], before.step c = none := by
    intro c hc
    simp only [List.mem_cons, List.not_mem_nil, or_false] at hc
    rcases hc with rfl | rfl <;> rfl
  constructor <;> rintro rfl
  · rw [hnone 32 (by decide)] at h
    cases h
  · rw [hnone 13 (by decide)] at h
    cases h

theorem run_visible {authority : Bytes} {scan : AuthorityScan} (h : AuthorityScan.run authority = some scan) :
    ∀ b ∈ authority, b ≠ 32 ∧ b ≠ 13 := by
  induction authority using List.reverseRecOn generalizing scan with
  | nil => nofun
  | append_singleton authority b ih =>
      obtain ⟨before, hbefore, hone⟩ := AuthorityScan.run_snoc h
      intro c hc
      rcases List.mem_append.mp hc with hmem | hmem
      · exact ih hbefore c hmem
      · obtain rfl := List.mem_singleton.mp hmem
        exact step_visible hone

theorem mem_httpHost {authority : Bytes} {b : UInt8} (h : b ∈ httpHost authority) : b ∈ authority ∨ b = 93 := by
  have hbefore : ∀ p, (afterUserinfo authority).takeWhile p ⊆ authority := fun p =>
    List.Subset.trans (List.takeWhile_prefix p).subset (List.rtakeWhile_suffix _ _).subset
  unfold httpHost at h
  simp only at h
  split at h
  · rcases List.mem_append.mp h with hmem | hmem
    · exact .inl (hbefore _ hmem)
    · exact .inr (List.mem_singleton.mp hmem)
  · exact .inl (hbefore _ h)

/-- The host of a URI, from its authority. -/
def httpUriHost (authority : Authority httpAuthority) : UriHost where
  bytes := authority.host
  form := httpHost_form authority.asStr
  visible := by
    obtain ⟨scan, hrun, -⟩ := httpAccepts_scan authority.2
    intro b hb
    rcases mem_httpHost hb with hmem | rfl
    · exact run_visible hrun b hmem
    · decide

/-! ### What a proxy reads -/

/-- A port in decimal. -/
def readPort (digits : Bytes) : Option Nat :=
  if digits ≠ [] ∧ digits.all isAsciiDigit = true ∧ digitsValue digits < 2 ^ 16 then some (digitsValue digits) else none

/-- By the generic syntax of URIs the host of an authority ends at its bracket, or at the first colon. -/
def hostPart (authority : Bytes) : Bytes :=
  if authority.head? = some 91 then authority.takeWhile (· != 93) ++ [93] else authority.takeWhile (· != 58)

/-- What follows the host of an authority with a port. -/
def portPart : Bytes → Option Nat
  | 58 :: port => readPort port
  | _ => none

def splitAuthority (authority : Bytes) : Option (Bytes × Nat) :=
  let host := hostPart authority
  if host <+: authority then (portPart (authority.drop host.length)).map (host, ·) else none

/-- The target of a `CONNECT` request, and its first header, which is to be `Host`. -/
def readConnect (request : Bytes) : Option (Bytes × Bytes) :=
  if text "CONNECT " <+: request then
    let rest := request.drop 8
    let target := rest.takeWhile (· != 32)
    let rest := rest.drop target.length
    if text " HTTP/1.1\r\nHost: " <+: rest then some (target, (rest.drop 17).takeWhile (· != 13)) else none
  else none

/-- The destination of a SOCKS5 request. -/
inductive Destination
  | v4 (octets : Bytes) | v6 (octets : Bytes) | name (host : Bytes)
  deriving DecidableEq, Repr

def destinationOf : IpAddr → Destination
  | .v4 address => .v4 (IpAddr.v4 address).octets
  | .v6 groups => .v6 (IpAddr.v6 groups).octets

/-- An address of `n` bytes and the port in network order, and nothing more. -/
def splitPort (n : Nat) (bytes : Bytes) : Option (Bytes × Nat) :=
  match bytes.drop n with
  | [high, low] => some (bytes.take n, high.toNat * 256 + low.toNat)
  | _ => none

/-- A `CONNECT` request in the wire format of SOCKS5. -/
def readSocks5Request : Bytes → Option (Destination × Nat)
  | 5 :: 1 :: 0 :: 1 :: rest => (splitPort 4 rest).map fun (octets, port) => (.v4 octets, port)
  | 5 :: 1 :: 0 :: 3 :: length :: rest => (splitPort length.toNat rest).map fun (host, port) => (.name host, port)
  | 5 :: 1 :: 0 :: 4 :: rest => (splitPort 16 rest).map fun (octets, port) => (.v6 octets, port)
  | _ => none

def skipGreeting : Bytes → Bytes
  | _ :: methods :: rest => rest.drop methods.toNat
  | _ => []

def skipCredentials : Bytes → Bytes
  | _ :: username :: rest =>
      match rest.drop username.toNat with
      | password :: rest => rest.drop password.toNat
      | [] => []
  | _ => []

/-- The part of what a client sends that comes after the greeting, and after the username and password if the
proxy selected them. -/
def socks5RequestSent (incoming sent : Bytes) : Bytes :=
  if incoming[1]? = some 2 then skipCredentials (skipGreeting sent) else skipGreeting sent

/-! ### Authorities -/

theorem readPort_decimal {port : Nat} (h : port < 2 ^ 16) : readPort (decimal port) = some port := by
  unfold readPort
  rw [digitsValue_decimal, if_pos ⟨decimal_ne_nil port, decimal_digits port, h⟩]

theorem takeWhile_ne {c : UInt8} {before : Bytes} (h : c ∉ before) (after : Bytes) :
    (before ++ c :: after).takeWhile (· != c) = before := by
  rw [List.takeWhile_append_of_pos]
  · simp
  · intro b hb
    simp only [bne_iff_ne, ne_eq]
    rintro rfl
    exact h hb

theorem splitAuthority_append {authority host after : Bytes} (hhost : hostPart authority = host)
    (hsplit : authority = host ++ after) :
    splitAuthority authority = (portPart after).map (host, ·) := by
  have hfront : host <+: authority := ⟨after, hsplit.symm⟩
  have hdrop : authority.drop host.length = after := by rw [hsplit, List.drop_left]
  simp only [splitAuthority, hhost, if_pos hfront, hdrop]

theorem splitAuthority_plain (host : UriHost) (hplain : 58 ∉ host.bytes) {port : Nat} (hport : port < 2 ^ 16) :
    splitAuthority (Proxy.authority host.bytes port) = some (host.bytes, port) := by
  have hauthority : Proxy.authority host.bytes port = host.bytes ++ 58 :: decimal port := by
    unfold Proxy.authority
    rw [if_neg (by simpa using hplain)]
  have hhost : hostPart (host.bytes ++ 58 :: decimal port) = host.bytes := by
    unfold hostPart
    rcases host.form with ⟨inner, hbytes, hinner⟩ | ⟨-, hhead⟩
    · rw [if_pos (by rw [hbytes]; rfl), show host.bytes ++ 58 :: decimal port =
        (91 :: inner) ++ 93 :: 58 :: decimal port by rw [hbytes]; simp, takeWhile_ne (by simpa using hinner), hbytes]
    · rw [if_neg, takeWhile_ne hplain]
      cases hbytes : host.bytes with
      | nil => simp
      | cons b rest => simpa [hbytes] using hhead
  rw [splitAuthority_append (hauthority ▸ hhost) hauthority]
  rw [portPart, readPort_decimal hport]
  rfl

theorem splitAuthority_colon (host : UriHost) (hcolon : 58 ∈ host.bytes) (port : Nat) :
    splitAuthority (Proxy.authority host.bytes port) = none := by
  obtain ⟨inner, hbytes, hinner⟩ := host.form.resolve_right fun hplain => hplain.1 hcolon
  have hauthority : Proxy.authority host.bytes port = (91 :: 91 :: inner) ++ 93 :: 93 :: 58 :: decimal port := by
    unfold Proxy.authority
    rw [if_pos (by simpa using hcolon), hbytes, show text "]:" = [93, 58] by decide]
    simp
  have hhost : hostPart (Proxy.authority host.bytes port) = (91 :: 91 :: inner) ++ [93] := by
    rw [hostPart, hauthority, if_pos (by rfl), takeWhile_ne (by simpa using hinner)]
  rw [splitAuthority_append hhost (show Proxy.authority host.bytes port = _ ++ 93 :: 58 :: decimal port by rw [hauthority]; simp)]
  rfl

theorem authority_visible (host : UriHost) (port : Nat) : ∀ b ∈ Proxy.authority host.bytes port, b ≠ 32 ∧ b ≠ 13 := by
  have hdigits : ∀ b ∈ decimal port, b ≠ 32 ∧ b ≠ 13 := by
    intro b hb
    have hdigit := List.all_eq_true.mp (decimal_digits port) b hb
    constructor <;> rintro rfl <;> cases hdigit
  have hbracket : ∀ b ∈ text "]:", b ≠ 32 ∧ b ≠ 13 := by
    have hall : (text "]:").all (fun b => b != 32 && b != 13) = true := by decide
    intro b hb
    simpa using List.all_eq_true.mp hall b hb
  unfold Proxy.authority
  split
  · intro b hb
    simp only [List.cons_append, List.mem_cons, List.mem_append] at hb
    obtain rfl | (hb | hb) | hb := hb
    · decide
    · exact host.visible b hb
    · exact hbracket b hb
    · exact hdigits b hb
  · intro b hb
    simp only [List.mem_append, List.mem_cons] at hb
    obtain hb | rfl | hb := hb
    · exact host.visible b hb
    · decide
    · exact hdigits b hb

theorem readConnect_request (host : UriHost) (port : Nat) (authorization : Option Bytes) (more : Bytes) :
    readConnect (Proxy.connectRequest host.bytes port authorization ++ more) =
      some (Proxy.authority host.bytes port, Proxy.authority host.bytes port) := by
  have hspace : 32 ∉ Proxy.authority host.bytes port := fun hmem => (authority_visible host port 32 hmem).1 rfl
  have hreturn : 13 ∉ Proxy.authority host.bytes port := fun hmem => (authority_visible host port 13 hmem).2 rfl
  unfold Proxy.connectRequest
  generalize Proxy.authority host.bytes port = authority at hspace hreturn
  obtain ⟨tail, htail⟩ : ∃ tail, text "CONNECT " ++ authority ++ text " HTTP/1.1\r\nHost: " ++ authority ++ text "\r\n" ++
      authorization.elim [] (fun value => text "Proxy-Authorization: " ++ value ++ text "\r\n") ++ text "\r\n" ++ more =
        text "CONNECT " ++ (authority ++ 32 :: (text "HTTP/1.1\r\nHost: " ++ (authority ++ 13 :: tail))) :=
    ⟨_, by simp only [List.append_assoc]; rfl⟩
  have hverb : (text "CONNECT " ++ (authority ++ 32 :: (text "HTTP/1.1\r\nHost: " ++ (authority ++ 13 :: tail)))).drop 8 =
      authority ++ 32 :: (text "HTTP/1.1\r\nHost: " ++ (authority ++ 13 :: tail)) :=
    List.drop_left' (by decide : (text "CONNECT ").length = 8)
  have hversion : (32 :: (text "HTTP/1.1\r\nHost: " ++ (authority ++ 13 :: tail))).drop 17 = authority ++ 13 :: tail := by
    show (text " HTTP/1.1\r\nHost: " ++ (authority ++ 13 :: tail)).drop 17 = authority ++ 13 :: tail
    exact List.drop_left' (by decide)
  rw [htail]
  unfold readConnect
  simp only [hverb, takeWhile_ne hspace, List.drop_left, hversion, takeWhile_ne hreturn]
  rw [if_pos (List.prefix_append _ _), if_pos ⟨authority ++ 13 :: tail, rfl⟩]

/-! ### The `CONNECT` request -/

section Connect

variable {reader : AuthorityReader} {parseUrl : ProxyUrlParser}

theorem silent_readHeadFrom (left : Nat) (response : Bytes) : Talk.Silent (Proxy.readHeadFrom left response) := by
  induction left generalizing response with
  | zero =>
      unfold Proxy.readHeadFrom
      exact Talk.Silent.ite (Talk.silent_pure _) (Talk.silent_fail _)
  | succ left ih =>
      unfold Proxy.readHeadFrom
      refine Talk.Silent.ite (Talk.silent_pure _) ((Talk.silent_readByte _).bind fun read => ?_)
      cases read with
      | none => exact Talk.silent_fail _
      | some b => exact ih _

theorem httpConnect_run {proxy : Proxy reader} {host : Bytes} {port : Nat} {authorization : Option Bytes}
    (hauthorization : Proxy.authorization parseUrl proxy = .ok authorization) {wire wire' : Wire}
    {result : Except Error Unit} (h : Proxy.httpConnect parseUrl proxy host port wire = (result, wire')) :
    ∃ sent, wire'.written = wire.written ++ sent ∧ sent <+: Proxy.connectRequest host port authorization ∧
      ((∃ u, result = .ok u) ∨ wire.room = none → sent = Proxy.connectRequest host port authorization) := by
  unfold Proxy.httpConnect at h
  rw [hauthorization] at h
  obtain ⟨error, herror, -⟩ | ⟨found, hfound, hrest⟩ := Talk.lift_run h
  · cases herror
  · cases hfound
    refine Talk.writeAll_then_silent (fun _ => ?_) hrest
    refine (Talk.silent_flush _).bind fun _ => (silent_readHeadFrom _ _).bind fun response => ?_
    cases (response.splitOn 32)[1]?.bind parseU16 with
    | none => exact Talk.silent_fail _
    | some status => exact Talk.Silent.ite (Talk.silent_pure _) (Talk.silent_fail _)

/-- What is written is a `CONNECT` request for the host and the port, or the front of one. -/
def ConnectsTo (parseUrl : ProxyUrlParser) (proxy : Proxy reader) (host : Bytes) (port : Nat) : Prop :=
  ∀ wire result wire', Proxy.httpConnect parseUrl proxy host port wire = (result, wire') →
    ∃ sent request target header, wire'.written = wire.written ++ sent ∧ sent <+: request ∧
      readConnect request = some (target, header) ∧ splitAuthority target = some (host, port) ∧
        splitAuthority header = some (host, port) ∧ (result = .ok () → sent = request)

theorem connectsTo_iff (host : UriHost) {port : Nat} (hport : port < 2 ^ 16) {proxy : Proxy reader}
    {authorization : Option Bytes} (hauthorization : Proxy.authorization parseUrl proxy = .ok authorization) :
    ConnectsTo parseUrl proxy host.bytes port ↔ 58 ∉ host.bytes := by
  constructor
  · intro hconnects hcolon
    -- a stream that takes every byte has the whole request, whatever the proxy answers
    let wire : Wire := ⟨[], none, [], none, none⟩
    obtain ⟨⟨result, wire'⟩, hrun⟩ : ∃ run, Proxy.httpConnect parseUrl proxy host.bytes port wire = run := ⟨_, rfl⟩
    obtain ⟨sent, request, target, header, hwritten, ⟨more, rfl⟩, hread, htarget, -⟩ := hconnects wire result wire' hrun
    obtain ⟨sent', hwritten', -, hall⟩ := httpConnect_run hauthorization hrun
    have hsent : sent = Proxy.connectRequest host.bytes port authorization := by
      rw [← hall (.inr rfl)]
      exact List.append_cancel_left (hwritten.symm.trans hwritten')
    rw [hsent, readConnect_request] at hread
    cases hread
    rw [splitAuthority_colon host hcolon] at htarget
    cases htarget
  · intro hplain wire result wire' hrun
    obtain ⟨sent, hwritten, hfront, hall⟩ := httpConnect_run hauthorization hrun
    have hread := readConnect_request host port authorization []
    rw [List.append_nil] at hread
    have hsplit := splitAuthority_plain host hplain hport
    exact ⟨sent, _, _, _, hwritten, hfront, hread, hsplit, hsplit, fun hok => hall (.inl ⟨_, hok⟩)⟩

end Connect

/-! ### The SOCKS5 request -/

theorem skipGreeting_mono {sent more : Bytes} (h : sent <+: more) : skipGreeting sent <+: skipGreeting more := by
  obtain ⟨rest, rfl⟩ := h
  match sent with
  | [] => exact List.nil_prefix
  | [_] => exact List.nil_prefix
  | version :: methods :: tail =>
      show tail.drop methods.toNat <+: (tail ++ rest).drop methods.toNat
      rw [List.drop_append]
      exact List.prefix_append _ _

theorem skipCredentials_mono {sent more : Bytes} (h : sent <+: more) :
    skipCredentials sent <+: skipCredentials more := by
  obtain ⟨rest, rfl⟩ := h
  match sent with
  | [] => exact List.nil_prefix
  | [_] => exact List.nil_prefix
  | version :: username :: tail =>
      simp only [skipCredentials, List.cons_append]
      cases hdrop : tail.drop username.toNat with
      | nil => exact List.nil_prefix
      | cons password after =>
          rw [List.drop_append, hdrop]
          simp only [List.cons_append]
          rw [List.drop_append]
          exact List.prefix_append _ _

theorem socks5RequestSent_mono (incoming : Bytes) {sent more : Bytes} (h : sent <+: more) :
    socks5RequestSent incoming sent <+: socks5RequestSent incoming more := by
  unfold socks5RequestSent
  split
  · exact skipCredentials_mono (skipGreeting_mono h)
  · exact skipGreeting_mono h

/-- Bytes after which the request begins. -/
def Opens (incoming opening : Bytes) : Prop := ∀ request, socks5RequestSent incoming (opening ++ request) = request

theorem skipGreeting_methods (username password rest : Bytes) :
    skipGreeting (Proxy.socks5Methods username password ++ rest) = rest := by
  unfold Proxy.socks5Methods
  split <;> rfl

theorem lengthPrefixed_ok {value role encoded : Bytes} (h : Proxy.lengthPrefixed value role = .ok encoded) :
    (UInt8.ofNat value.length).toNat = value.length ∧ encoded = .ofNat value.length :: value := by
  unfold Proxy.lengthPrefixed at h
  split at h
  · rename_i hle
    cases h
    refine ⟨?_, rfl⟩
    rw [UInt8.toNat_ofNat']
    omega
  · cases h

theorem skipCredentials_credentials {username password credentials : Bytes}
    (h : Proxy.socks5Credentials username password = .ok credentials) (rest : Bytes) :
    skipCredentials (credentials ++ rest) = rest := by
  unfold Proxy.socks5Credentials at h
  obtain ⟨name, hname, h⟩ := bind_eq_ok.mp h
  obtain ⟨secret, hsecret, h⟩ := bind_eq_ok.mp h
  cases h
  obtain ⟨hnameLength, rfl⟩ := lengthPrefixed_ok hname
  obtain ⟨hsecretLength, rfl⟩ := lengthPrefixed_ok hsecret
  simp only [skipCredentials, List.cons_append, List.append_assoc, hnameLength, List.drop_left, hsecretLength]

theorem opens_plain {incoming : Bytes} (h : incoming[1]? ≠ some 2) (username password : Bytes) :
    Opens incoming (Proxy.socks5Methods username password) := by
  intro request
  rw [socks5RequestSent, if_neg h, skipGreeting_methods]

theorem opens_credentials {incoming : Bytes} (h : incoming[1]? = some 2) {username password : Bytes}
    (name secret : Bytes) {credentials : Bytes} (hcredentials : Proxy.socks5Credentials name secret = .ok credentials) :
    Opens incoming (Proxy.socks5Methods username password ++ credentials) := by
  intro request
  rw [socks5RequestSent, if_pos h, List.append_assoc, skipGreeting_methods, skipCredentials_credentials hcredentials]

theorem exists_opening (incoming username password : Bytes) :
    ∃ opening, Opens incoming opening ∧ Proxy.socks5Methods username password <+: opening := by
  by_cases h : incoming[1]? = some 2
  · exact ⟨_, opens_credentials h [] [] rfl, List.prefix_append _ _⟩
  · exact ⟨_, opens_plain h username password, List.prefix_rfl⟩

/-- The negotiation sends an opening, or the front of one. -/
theorem socks5Negotiate_run {username password : Bytes} {wire wire' : Wire} {result : Except Error Unit}
    (h : Proxy.socks5Negotiate username password wire = (result, wire')) :
    ∃ opening sent, Opens wire.incoming opening ∧ wire'.written = wire.written ++ sent ∧ sent <+: opening ∧
      ((∃ u, result = .ok u) → sent = opening) := by
  obtain ⟨opening, hopens, hgreeting⟩ := exists_opening wire.incoming username password
  unfold Proxy.socks5Negotiate at h
  obtain ⟨error, hwrite, rfl⟩ | ⟨_, greeted, hwrite, h⟩ := Talk.bind_run h
  · obtain ⟨-, ⟨hok, -⟩ | ⟨_, part, -, hpart, hwritten, -⟩⟩ := Talk.writeAll_run hwrite
    · cases hok
    · exact ⟨opening, part, hopens, hwritten, hpart.trans hgreeting, nofun⟩
  obtain ⟨hincoming, ⟨-, hwritten⟩ | ⟨_, _, herror, -⟩⟩ := Talk.writeAll_run hwrite
  swap
  · cases herror
  obtain ⟨error, hread, rfl⟩ | ⟨method, selected, hread, h⟩ := Talk.bind_run h
  · exact ⟨opening, _, hopens, (Talk.readExact_run hread).1.trans hwritten, hgreeting, nofun⟩
  obtain ⟨hsilent, ⟨_, heq, hmethod, hlength⟩ | ⟨_, herror⟩⟩ := Talk.readExact_run hread
  swap
  · cases herror
  cases heq
  rw [hwritten] at hsilent
  have hselected : wire.incoming[1]? = some (method.getD 1 0) := by
    obtain ⟨version, chosen, rfl⟩ := List.length_eq_two.mp hlength
    rw [← hincoming, hmethod]
    rfl
  split at h
  · cases h
    exact ⟨opening, _, hopens, hsilent, hgreeting, nofun⟩
  split at h
  · rename_i hpassword
    rw [hpassword] at hselected
    obtain ⟨error, -, rfl, rfl⟩ | ⟨credentials, hcredentials, h⟩ := Talk.lift_run h
    · exact ⟨opening, _, hopens, hsilent, hgreeting, nofun⟩
    · obtain ⟨sent, hsent, hfront, hall⟩ := Talk.writeAll_then_silent
        (fun _ => (Talk.silent_readExact _ _).bind fun _ => Talk.Silent.ite (Talk.silent_fail _) (Talk.silent_pure _)) h
      refine ⟨_, Proxy.socks5Methods username password ++ sent, opens_credentials hselected username password hcredentials,
        ?_, (List.prefix_append_right_inj _).mpr hfront, fun hok => by rw [hall (.inl hok)]⟩
      rw [hsent, hsilent, List.append_assoc]
  · rename_i hnone
    cases h
    exact ⟨_, _, opens_plain (by rw [hselected]; simpa using hnone) username password, hsilent, List.prefix_rfl, fun _ => rfl⟩

theorem silent_socks5Reply : Talk.Silent Proxy.socks5Reply := by
  refine (Talk.silent_readExact _ _).bind fun response => Talk.Silent.ite (Talk.silent_fail _) ?_
  refine Talk.Silent.bind ?_ fun _ => (Talk.silent_readExact _ _).bind fun _ => Talk.silent_pure _
  refine Talk.Silent.ite (Talk.silent_pure _) (Talk.Silent.ite (Talk.silent_pure _) (Talk.Silent.ite ?_ (Talk.silent_fail _)))
  exact (Talk.silent_readExact _ _).bind fun _ => Talk.silent_pure _

section Socks5

variable {reader : AuthorityReader} {parseUrl : ProxyUrlParser} {resolve : Resolver}

/-- An opening and the request, or the front of that. Without a request nothing comes after the opening, and the
call fails. -/
def SendsSocks5 (request : Except Error Bytes) (opening sent : Bytes) (result : Except Error Unit) : Prop :=
  match request with
  | .ok request => sent <+: opening ++ request ∧ (result = .ok () → sent = opening ++ request)
  | .error _ => sent <+: opening ∧ ∃ error, result = .error error

theorem sendsSocks5_early {request : Except Error Bytes} {opening sent : Bytes} (h : sent <+: opening) (error : Error) :
    SendsSocks5 request opening sent (.error error) := by
  cases request with
  | ok request => exact ⟨h.trans (List.prefix_append _ _), nofun⟩
  | error _ => exact ⟨h, error, rfl⟩

theorem socks5Connect_run {proxy : Proxy reader} {host : Bytes} {port : Nat} {remoteDns : Bool} {wire wire' : Wire}
    {result : Except Error Unit} (h : Proxy.socks5Connect parseUrl resolve proxy host port remoteDns wire = (result, wire')) :
    ∃ opening sent, Opens wire.incoming opening ∧ wire'.written = wire.written ++ sent ∧
      SendsSocks5 (Proxy.socks5Request resolve host port remoteDns) opening sent result := by
  obtain ⟨unsent, hunsent, -⟩ := exists_opening wire.incoming [] []
  have hnothing : wire.written = wire.written ++ [] := (List.append_nil _).symm
  unfold Proxy.socks5Connect at h
  -- the three texts of the proxy URL are read before anything is written
  obtain ⟨error, -, rfl, rfl⟩ | ⟨parsed, -, h⟩ := Talk.lift_run h
  · exact ⟨unsent, [], hunsent, hnothing, sendsSocks5_early List.nil_prefix error⟩
  obtain ⟨error, -, rfl, rfl⟩ | ⟨username, -, h⟩ := Talk.lift_run h
  · exact ⟨unsent, [], hunsent, hnothing, sendsSocks5_early List.nil_prefix error⟩
  obtain ⟨error, -, rfl, rfl⟩ | ⟨password, -, h⟩ := Talk.lift_run h
  · exact ⟨unsent, [], hunsent, hnothing, sendsSocks5_early List.nil_prefix error⟩
  obtain ⟨error, hnegotiate, rfl⟩ | ⟨_, negotiated, hnegotiate, h⟩ := Talk.bind_run h
  · obtain ⟨opening, sent, hopens, hwritten, hfront, -⟩ := socks5Negotiate_run hnegotiate
    exact ⟨opening, sent, hopens, hwritten, sendsSocks5_early hfront error⟩
  obtain ⟨opening, sent, hopens, hwritten, -, hall⟩ := socks5Negotiate_run hnegotiate
  obtain rfl := hall ⟨_, rfl⟩
  obtain ⟨error, -, rfl, rfl⟩ | ⟨request, hrequest, h⟩ := Talk.lift_run h
  · exact ⟨sent, sent, hopens, hwritten, sendsSocks5_early List.prefix_rfl error⟩
  obtain ⟨command, hcommand, hfront, hwhole⟩ := Talk.writeAll_then_silent (fun _ => silent_socks5Reply) h
  refine ⟨sent, sent ++ command, hopens, by rw [hcommand, hwritten, List.append_assoc], ?_⟩
  rw [hrequest]
  exact ⟨(List.prefix_append_right_inj _).mpr hfront, fun hok => by rw [hwhole (.inl ⟨_, hok⟩)]⟩

/-! ### The destination of a host -/

/-- The IP literals of a URI: four octets with dots, or an IPv6 address in brackets. -/
inductive IsLiteral (host : Bytes) : IpAddr → Prop
  | v4 {address : Ipv4Addr} : host = address.dotted → IsLiteral host (.v4 address)
  | v6 {inner : Bytes} {groups : Vector UInt16 8} : host = 91 :: inner ++ [93] → parseIpv6 inner = some groups →
      IsLiteral host (.v6 groups)

theorem isLiteral_plain {host : Bytes} (hplain : 58 ∉ host) {address : IpAddr} :
    IsLiteral host address ↔ parseIpAddr host = some address := by
  constructor
  · rintro (hdotted | @⟨inner, groups, rfl, hinner⟩)
    · exact (parseIpAddr_plain hplain).mpr ⟨_, rfl, hdotted⟩
    · have hnone : 58 ∉ inner := fun hmem => hplain (by simp [hmem])
      rw [parseIpv6, readIpv6_plain hnone] at hinner
      cases hinner
  · intro hparse
    obtain ⟨octets, rfl, hdotted⟩ := (parseIpAddr_plain hplain).mp hparse
    exact .v4 hdotted

/-- Where a host leads: to the address it is a literal of, with remote DNS to its name if the protocol can
carry it, and otherwise to the first address the resolver has for it. -/
inductive Leads (resolve : Resolver) (host : Bytes) (port : Nat) : Bool → Option Destination → Prop
  | literal {remoteDns : Bool} {address : IpAddr} : IsLiteral host address →
      Leads resolve host port remoteDns (some (destinationOf address))
  | name : (∀ address, ¬IsLiteral host address) → host.length ≤ 255 → Leads resolve host port true (some (.name host))
  | tooLong : (∀ address, ¬IsLiteral host address) → 255 < host.length → Leads resolve host port true none
  | resolved {address : IpAddr} {others : List IpAddr} : (∀ address, ¬IsLiteral host address) →
      resolve host port = .ok (address :: others) → Leads resolve host port false (some (destinationOf address))
  | unresolved : (∀ address, ¬IsLiteral host address) → (∀ address others, resolve host port ≠ .ok (address :: others)) →
      Leads resolve host port false none

theorem splitPort_append (address : Bytes) {port : Nat} (hport : port < 2 ^ 16) :
    splitPort address.length (address ++ Proxy.toBeBytes port) = some (address, port) := by
  have hvalue : (UInt8.ofNat (port / 256)).toNat * 256 + (UInt8.ofNat (port % 256)).toNat = port := by
    rw [UInt8.toNat_ofNat', UInt8.toNat_ofNat']
    omega
  simp only [splitPort, List.drop_left, List.take_left, Proxy.toBeBytes, hvalue]

theorem octets_v6_length (groups : Vector UInt16 8) : (IpAddr.v6 groups).octets.length = 16 := by
  simp [IpAddr.octets, List.length_flatMap]

theorem readSocks5Request_address (address : IpAddr) {port : Nat} (hport : port < 2 ^ 16) :
    readSocks5Request ([5, 1, 0] ++ Proxy.addressField address ++ Proxy.toBeBytes port) =
      some (destinationOf address, port) := by
  cases address with
  | v4 octets =>
      have hsplit := splitPort_append (IpAddr.v4 octets).octets hport
      show readSocks5Request (5 :: 1 :: 0 :: 1 :: ((IpAddr.v4 octets).octets ++ Proxy.toBeBytes port)) = _
      rw [show (IpAddr.v4 octets).octets.length = 4 from rfl] at hsplit
      rw [readSocks5Request, hsplit]
      rfl
  | v6 groups =>
      have hsplit := splitPort_append (IpAddr.v6 groups).octets hport
      show readSocks5Request (5 :: 1 :: 0 :: 4 :: ((IpAddr.v6 groups).octets ++ Proxy.toBeBytes port)) = _
      rw [octets_v6_length] at hsplit
      rw [readSocks5Request, hsplit]
      rfl

theorem readSocks5Request_name {host role encoded : Bytes} (h : Proxy.lengthPrefixed host role = .ok encoded) {port : Nat}
    (hport : port < 2 ^ 16) :
    readSocks5Request ([5, 1, 0] ++ 3 :: encoded ++ Proxy.toBeBytes port) = some (.name host, port) := by
  obtain ⟨hlength, rfl⟩ := lengthPrefixed_ok h
  have hsplit := splitPort_append host hport
  show (splitPort (UInt8.ofNat host.length).toNat (host ++ Proxy.toBeBytes port)).map _ = _
  rw [hlength, hsplit]
  rfl

/-- The request for a host without a colon leads where the host leads, and there is one exactly if the host leads
anywhere. -/
def RequestLeads (request : Except Error Bytes) (port : Nat) : Option Destination → Prop
  | some destination => ∃ bytes, request = .ok bytes ∧ readSocks5Request bytes = some (destination, port)
  | none => ∃ error, request = .error error

theorem socks5Request_leads {host : Bytes} (hplain : 58 ∉ host) {port : Nat} (hport : port < 2 ^ 16) {remoteDns : Bool}
    {wanted : Option Destination} (hleads : Leads resolve host port remoteDns wanted) :
    RequestLeads (Proxy.socks5Request resolve host port remoteDns) port wanted := by
  have haddress : ∀ address, Proxy.socks5Target resolve host port remoteDns = .ok (Proxy.addressField address) →
      RequestLeads (Proxy.socks5Request resolve host port remoteDns) port (some (destinationOf address)) := by
    intro address htarget
    rw [Proxy.socks5Request, htarget]
    exact ⟨_, rfl, readSocks5Request_address address hport⟩
  have hparse : (∀ address, ¬IsLiteral host address) → parseIpAddr host = none := by
    intro hnone
    rw [Option.eq_none_iff_forall_ne_some]
    exact fun address hsome => hnone address ((isLiteral_plain hplain).mpr hsome)
  cases hleads with
  | @literal _ address hliteral =>
      have hsome := (isLiteral_plain hplain).mp hliteral
      apply haddress
      simp [Proxy.socks5Target, Proxy.socks5Address, hsome, bind, Except.bind, pure, Except.pure]
  | name hnone hlength =>
      obtain ⟨encoded, hencoded⟩ : ∃ encoded, Proxy.lengthPrefixed host (text "SOCKS5 hostname") = .ok encoded :=
        ⟨_, if_pos hlength⟩
      refine ⟨_, ?_, readSocks5Request_name hencoded hport⟩
      simp [Proxy.socks5Request, Proxy.socks5Target, hparse hnone, hencoded, bind, Except.bind, pure, Except.pure]
  | tooLong hnone hlength =>
      have htooLong : Proxy.lengthPrefixed host (text "SOCKS5 hostname") =
          .error (.proxy (text "SOCKS5 hostname" ++ text " exceeds 255 bytes")) := if_neg (by omega)
      refine ⟨.proxy (text "SOCKS5 hostname" ++ text " exceeds 255 bytes"), ?_⟩
      simp only [Proxy.socks5Request, Proxy.socks5Target, hparse hnone, htooLong, bind, Except.bind, Option.isNone_none,
        Bool.and_self, if_true]
  | @resolved address others hnone hresolve =>
      apply haddress
      simp [Proxy.socks5Target, Proxy.socks5Address, hparse hnone, hresolve, bind, Except.bind, pure, Except.pure]
  | unresolved hnone hunresolved =>
      obtain ⟨error, herror⟩ : ∃ error, Proxy.socks5Address resolve host port = .error error := by
        unfold Proxy.socks5Address
        simp only [hparse hnone]
        split
        · exact ⟨_, rfl⟩
        · exact ⟨_, rfl⟩
        · rename_i address others hresolve
          exact absurd hresolve (hunresolved address others)
      refine ⟨error, ?_⟩
      simp only [Proxy.socks5Request, Proxy.socks5Target, herror, bind, Except.bind, Bool.false_and, Bool.false_eq_true,
        if_false]

/-- What the proxy reads of the request is one for the destination and the port, or the front of one. A host that
leads nowhere fails, and no byte of a request is sent. -/
def AsksFor (port : Nat) (requestSent : Bytes) (result : Except Error Unit) : Option Destination → Prop
  | some destination => ∃ request, readSocks5Request request = some (destination, port) ∧ requestSent <+: request ∧
      (result = .ok () → requestSent = request)
  | none => requestSent = [] ∧ ∃ error, result = .error error

def Socks5ConnectsTo (parseUrl : ProxyUrlParser) (resolve : Resolver) (proxy : Proxy reader) (host : Bytes) (port : Nat)
    (remoteDns : Bool) : Prop :=
  ∀ wire result wire' wanted,
    Proxy.socks5Connect parseUrl resolve proxy host port remoteDns wire = (result, wire') →
      Leads resolve host port remoteDns wanted →
        ∃ sent, wire'.written = wire.written ++ sent ∧
          AsksFor port (socks5RequestSent wire.incoming sent) result wanted

theorem socks5ConnectsTo_plain {host : Bytes} (hplain : 58 ∉ host) {port : Nat} (hport : port < 2 ^ 16)
    (proxy : Proxy reader) (remoteDns : Bool) : Socks5ConnectsTo parseUrl resolve proxy host port remoteDns := by
  intro wire result wire' wanted hrun hleads
  obtain ⟨opening, sent, hopens, hwritten, hsends⟩ := socks5Connect_run hrun
  refine ⟨sent, hwritten, ?_⟩
  have hrequest := socks5Request_leads hplain hport hleads
  cases wanted with
  | some destination =>
      obtain ⟨request, hok, hread⟩ := hrequest
      rw [hok] at hsends
      have hfront := socks5RequestSent_mono wire.incoming hsends.1
      rw [hopens] at hfront
      exact ⟨request, hread, hfront, fun hsuccess => by rw [hsends.2 hsuccess, hopens]⟩
  | none =>
      obtain ⟨error, herror⟩ := hrequest
      rw [herror] at hsends
      have hfront := socks5RequestSent_mono wire.incoming hsends.1
      rw [← List.append_nil opening, hopens] at hfront
      exact ⟨List.prefix_nil.mp hfront, hsends.2⟩

end Socks5

/-! ### The target -/

/-- A proxy is asked for the host and the port of the URI, in the `CONNECT` request and in the SOCKS5 request,
exactly if the host has no colon. -/
theorem proxy_target_iff {reader : AuthorityReader} (parseUrl : ProxyUrlParser) (resolve : Resolver) (host : UriHost)
    {port : Nat} (hport : port < 2 ^ 16) {proxy : Proxy reader} {authorization : Option Bytes}
    (hauthorization : Proxy.authorization parseUrl proxy = .ok authorization) :
    (ConnectsTo parseUrl proxy host.bytes port ∧
      ∀ (socks : Proxy reader) (remoteDns : Bool), Socks5ConnectsTo parseUrl resolve socks host.bytes port remoteDns) ↔
        58 ∉ host.bytes := by
  constructor
  · rintro ⟨hconnects, -⟩
    exact (connectsTo_iff host hport hauthorization).mp hconnects
  · intro hplain
    exact ⟨(connectsTo_iff host hport hauthorization).mpr hplain, socks5ConnectsTo_plain hplain hport⟩

/-- The local resolver of a machine without a network. -/
private def offline : Resolver := fun _ _ => .error (text "Name or service not known")

private def proxyUri : Uri httpAuthority :=
  ⟨some .http, some ⟨text "user:p%20s@proxy.test:3128", by decide⟩, some ⟨text "/", none⟩⟩

private def readProxyUrl : ProxyUrlParser := fun url =>
  if url = proxyUri.display then .ok ⟨text "user", some (text "p%20s")⟩ else .error (text "relative URL without a base")

theorem proxy_target_name :
    (ConnectsTo readProxyUrl (.http proxyUri) (text "origin.test") 443 ∧
      ∀ (socks : Proxy httpAuthority) (remoteDns : Bool),
        Socks5ConnectsTo readProxyUrl offline socks (text "origin.test") 443 remoteDns) ∧
      58 ∉ text "origin.test" := by
  have hplain : 58 ∉ text "origin.test" := by decide
  have hauthorization : Proxy.authorization readProxyUrl (.http proxyUri) = .ok (some (text "Basic dXNlcjpwIHM=")) := by
    decide
  have hiff := proxy_target_iff readProxyUrl offline (httpUriHost ⟨text "origin.test:443", by decide⟩)
    (by decide : 443 < 2 ^ 16) hauthorization
  exact ⟨hiff.mpr hplain, hplain⟩

private def loopbackAuthority : Authority httpAuthority := ⟨text "[::1]:443", by decide⟩

/-- A proxy that grants the connection, without a limit on what it takes. -/
private def connectWire : Wire := ⟨text "HTTP/1.1 200 OK\r\n\r\n", none, [], none, none⟩

private def socksWire : Wire := ⟨[5, 0, 5, 0, 0, 1, 0, 0, 0, 0, 0, 0], none, [], none, none⟩

/-- An IPv6 address: the authority has two pairs of brackets, and over SOCKS5 the text with its brackets is sent as a
name. -/
theorem ipv6_target_lost : (httpUriHost loopbackAuthority).bytes = text "[::1]" ∧
    IsLiteral (text "[::1]") (.v6 #v[0, 0, 0, 0, 0, 0, 0, 1]) ∧
    (Proxy.httpConnect readProxyUrl (.http proxyUri) (text "[::1]") 443 connectWire).2.written =
      text "CONNECT [[::1]]:443 HTTP/1.1\r\nHost: [[::1]]:443\r\nProxy-Authorization: Basic dXNlcjpwIHM=\r\n\r\n" ∧
    (Proxy.socks5Connect readProxyUrl offline (.socks5 proxyUri true) (text "[::1]") 443 true socksWire).2.written =
      [5, 2, 0, 2] ++ [5, 1, 0, 3, 5] ++ text "[::1]" ++ [1, 187] ∧
    ¬ConnectsTo readProxyUrl (.http proxyUri) (text "[::1]") 443 ∧
    ¬Socks5ConnectsTo readProxyUrl offline (.socks5 proxyUri true) (text "[::1]") 443 true := by
  have hliteral : IsLiteral (text "[::1]") (.v6 #v[0, 0, 0, 0, 0, 0, 0, 1]) :=
    .v6 (show text "[::1]" = 91 :: text "::1" ++ [93] by decide) (by decide)
  have hsocks : (Proxy.socks5Connect readProxyUrl offline (.socks5 proxyUri true) (text "[::1]") 443 true socksWire).2.written =
      [5, 2, 0, 2] ++ [5, 1, 0, 3, 5] ++ text "[::1]" ++ [1, 187] := by decide
  refine ⟨by decide, hliteral, by decide +kernel, hsocks, ?_, ?_⟩
  · intro hconnects
    have hauthorization : Proxy.authorization readProxyUrl (.http proxyUri) = .ok (some (text "Basic dXNlcjpwIHM=")) := by
      decide
    exact (connectsTo_iff (httpUriHost loopbackAuthority) (by decide) hauthorization).mp hconnects (by decide)
  · intro hconnects
    have hok : (Proxy.socks5Connect readProxyUrl offline (.socks5 proxyUri true) (text "[::1]") 443 true socksWire).1 =
        .ok () := by decide
    obtain ⟨sent, hsent, request, hread, -, hall⟩ := hconnects socksWire _ _ _ rfl (.literal hliteral)
    obtain rfl : [5, 2, 0, 2] ++ [5, 1, 0, 3, 5] ++ text "[::1]" ++ [1, 187] = sent := hsocks.symm.trans hsent
    rw [← hall hok] at hread
    revert hread
    decide

end RequestsNative.Transport
