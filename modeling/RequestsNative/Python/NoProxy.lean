import RequestsNative.Ip

/-!
# Hosts without a proxy

`sessions.rs`, `should_bypass_environment_proxy`, and `utils.py`, `should_bypass_proxies`. Both read a list of hosts that no
proxy is used for, and then ask the platform. They read addresses differently: `utils.py` with `inet_aton`, which takes
short and octal forms as well, and a check of its own for the prefix length; `sessions.rs` with `ipaddress`, which takes
four decimal octets only, but also a prefix of no bits and a mask in place of a length. And `sessions.rs` compares names as
UTF-8, which a surrogate does not have.

Texts are given by the bytes of their code points, where a surrogate has three bytes like its neighbours, and every
separator is ASCII.
-/

namespace RequestsNative.Python

/-! ### The library -/

inductive PyError (E : Type)
  | osError
  | valueError
  /-- The `UnicodeEncodeError` of a surrogate. -/
  | unicodeError
  /-- The `ValueError` of `parsed.port`. -/
  | portError
  | typeError
  | gaierror
  | other (error : E)
  deriving DecidableEq, Repr

/-- `ipaddress.IPv4Address._parse_octet`. -/
def parseOctet (octet : Bytes) : Option UInt8 :=
  if octet = [] ∨ octet.all isAsciiDigit = false ∨ 3 < octet.length then none
  else if octet ≠ [48] ∧ octet.head? = some 48 then none
  else if 255 < digitsValue octet then none
  else some (UInt8.ofNat (digitsValue octet))

/-- `ipaddress.IPv4Address` of a text. -/
def ipv4Address (address : Bytes) : Option Ipv4Addr :=
  match address.splitOn 46 with
  | [a, b, c, d] => do
      let a ← parseOctet a
      let b ← parseOctet b
      let c ← parseOctet c
      let d ← parseOctet d
      return ⟨a, b, c, d⟩
  | _ => none

/-- The address of a number of 32 bits. -/
def addressOfNat (n : Nat) : Ipv4Addr := ⟨.ofNat (n / 2 ^ 24), .ofNat (n / 2 ^ 16), .ofNat (n / 2 ^ 8), .ofNat n⟩

def maskAddress (address mask : Ipv4Addr) : Ipv4Addr :=
  ⟨address.a &&& mask.a, address.b &&& mask.b, address.c &&& mask.c, address.d &&& mask.d⟩

/-- The mask of a prefix of so many bits. -/
def prefixMask (bits : Nat) : Ipv4Addr := addressOfNat (0xFFFFFFFF ^^^ ((1 <<< (32 - bits)) - 1))

/-- The text has a surrogate, whose bytes begin with `ED A0` to `ED BF`. -/
def hasSurrogate : Bytes → Bool
  | b :: c :: rest => b == 0xED && 0xA0 ≤ c || hasSurrogate (c :: rest)
  | _ => false

/-- What the code needs from the C library, from `int` and from `os.environ`. -/
structure Stdlib (E : Type) where
  inetAton : Bytes → Except (PyError E) Ipv4Addr
  /-- `int` of a text; `none` is the `ValueError`. -/
  int : Bytes → Option Int
  /-- The error of a value that no variable of the environment can have. -/
  unsettable : Bytes → Option (PyError E)

/-- Four decimal octets are an address for `inet_aton`. What is none raises an `OSError`, a null character a `ValueError`,
and a surrogate a `UnicodeEncodeError`. -/
structure Stdlib.Documented {E : Type} (lib : Stdlib E) : Prop where
  quad : ∀ {text address}, ipv4Address text = some address → lib.inetAton text = .ok address
  raises : ∀ {text error}, lib.inetAton text = .error error →
    error = .osError ∨ error = .valueError ∨ error = .unicodeError

/-- `_prefix_from_prefix_string`. -/
def prefixFromPrefixString {E : Type} (lib : Stdlib E) (text : Bytes) : Option Nat :=
  if text ≠ [] ∧ text.all isAsciiDigit = true then
    match lib.int text with
    | some bits => if 0 ≤ bits ∧ bits ≤ 32 then some bits.toNat else none
    | none => none
  else none

/-- `_prefix_from_ip_int`. -/
def prefixFromIpInt (mask : Ipv4Addr) : Option Nat := (List.range 33).find? fun bits => prefixMask bits = mask

/-- `_prefix_from_ip_string`: a network mask, or a host mask. -/
def prefixFromIpString (text : Bytes) : Option Nat :=
  match ipv4Address text with
  | some mask => (prefixFromIpInt mask).or (prefixFromIpInt ⟨~~~mask.a, ~~~mask.b, ~~~mask.c, ~~~mask.d⟩)
  | none => none

/-- `ipaddress.IPv4Network` of a text with `strict=False`: the network's address and mask. -/
def ipv4Network {E : Type} (lib : Stdlib E) (network : Bytes) : Option (Ipv4Addr × Ipv4Addr) :=
  match network.splitOn 47 with
  | [address] => (ipv4Address address).map fun address => (maskAddress address (prefixMask 32), prefixMask 32)
  | [address, mask] =>
      match ipv4Address address, (prefixFromPrefixString lib mask).or (prefixFromIpString mask) with
      | some address, some bits => some (maskAddress address (prefixMask bits), prefixMask bits)
      | _, _ => none
  | _ => none

/-! ### The environment and the URL -/

/-- `os.environ`. -/
def Environ := String → Option Bytes

namespace Environ

def set (environ : Environ) (name : String) (value : Bytes) : Environ :=
  fun other => if other = name then some value else environ other

def del (environ : Environ) (name : String) : Environ := fun other => if other = name then none else environ other

/-- `environ[name] = value`. -/
def setItem {E : Type} (lib : Stdlib E) (environ : Environ) (name : String) (value : Bytes) : Except (PyError E) Environ :=
  match lib.unsettable value with
  | some error => .error error
  | none => .ok (environ.set name value)

end Environ

/-- `proxy_bypass` of the platform. -/
def PlatformHook (E : Type) := Environ → Bytes → Except (PyError E) Bool

/-- What `urlparse` gives. -/
structure ParsedUrl where
  hostname : Option Bytes
  /-- The error is a `ValueError`: the port is no number, or too large. -/
  port : Except Unit (Option Nat)

/-- The hosts of a list. -/
def noProxyHosts (noProxy : Bytes) : List Bytes := ((noProxy.filter (· ≠ 32)).splitOn 44).filter (· ≠ [])

def hostWithPort (hostname : Bytes) (port : Option Nat) : Bytes :=
  match port with
  | some 0 | none => hostname
  | some port => hostname ++ 58 :: decimal port

/-- An entry that names the host, with or without its port, or a domain above it. -/
def namesHost (hostname : Bytes) (port : Option Nat) (entry : Bytes) : Bool :=
  let host := entry.dropWhile (· == 46)
  hostname == host || hostWithPort hostname port == host ||
    (46 :: host).isSuffixOf hostname || (46 :: host).isSuffixOf (hostWithPort hostname port)

section Functions

variable {E : Type} (lib : Stdlib E) (hook : PlatformHook E)

/-! ### `utils.py` -/

def isIpv4Address (stringIp : Bytes) : Except (PyError E) Bool :=
  match lib.inetAton stringIp with
  | .ok _ => .ok true
  | .error .osError | .error .gaierror => .ok false
  | .error error => .error error

def isValidCidr (stringNetwork : Bytes) : Except (PyError E) Bool :=
  match stringNetwork.splitOn 47 with
  | [address, bits] =>
      match lib.int bits with
      | none => .ok false
      | some mask =>
          if mask < 1 ∨ 32 < mask then .ok false
          else
            match lib.inetAton address with
            | .ok _ => .ok true
            | .error .osError | .error .gaierror => .ok false
            | .error error => .error error
  | _ => .ok false

def dottedNetmask (mask : Int) : Bytes := (addressOfNat (0xFFFFFFFF ^^^ ((1 <<< (32 - mask).toNat) - 1))).dotted

def addressInNetwork (ip net : Bytes) : Except (PyError E) Bool := do
  let ipaddr ← lib.inetAton ip
  match net.splitOn 47 with
  | [netaddr, bits] =>
      match lib.int bits with
      | none => .error .valueError
      | some bits =>
          let netmask ← lib.inetAton (dottedNetmask bits)
          let netaddr ← lib.inetAton netaddr
          let network := maskAddress netaddr netmask
          return maskAddress ipaddr netmask == maskAddress network netmask
  | _ => .error .valueError

/-- The loop over the hosts for an address. -/
def bypassesAddress (hostname : Bytes) : List Bytes → Except (PyError E) Bool
  | [] => .ok false
  | proxyIp :: rest => do
      if ← isValidCidr lib proxyIp then
        if ← addressInNetwork lib hostname proxyIp then return true
        else bypassesAddress hostname rest
      else if hostname = proxyIp then return true
      else bypassesAddress hostname rest

/-- The list of `no_proxy`: what is passed, or else the environment's. -/
def getNoProxy (environ : Environ) (noProxyArg : Option Bytes) : Option Bytes :=
  match noProxyArg with
  | some noProxy => some noProxy
  | none =>
      match environ "no_proxy" with
      | none | some [] => environ "NO_PROXY"
      | some noProxy => some noProxy

/-- Whether the list says so. -/
def pythonList (hostname : Bytes) (port : Except Unit (Option Nat)) (noProxy : Option Bytes) :
    Except (PyError E) Bool :=
  match noProxy with
  | none | some [] => .ok false
  | some noProxy => do
      if ← isIpv4Address lib hostname then bypassesAddress lib hostname (noProxyHosts noProxy)
      else
        let port ← port.mapError fun _ => .portError
        return (noProxyHosts noProxy).any (namesHost hostname port)

/-- `set_environ`: the variable has a value during the body, and its old one afterwards. -/
def setEnviron {α : Type} (envName : String) (value : Option Bytes) (environ : Environ)
    (body : Environ → Except (PyError E) α) : Except (PyError E) α × Environ :=
  match value with
  | none => (body environ, environ)
  | some value =>
      let oldValue := environ envName
      match environ.setItem lib envName value with
      | .error error => (.error error, environ)
      | .ok environ =>
          let result := body environ
          -- a value that was there can be set again
          match oldValue with
          | none => (result, environ.del envName)
          | some oldValue => (result, environ.set envName oldValue)

def shouldBypassProxies (environ : Environ) (url : ParsedUrl) (noProxyArg : Option Bytes) :
    Except (PyError E) Bool × Environ :=
  match url.hostname with
  | none => (.ok true, environ)
  | some hostname =>
      match pythonList lib hostname url.port (getNoProxy environ noProxyArg) with
      | .error error => (.error error, environ)
      | .ok true => (.ok true, environ)
      | .ok false =>
          setEnviron lib "no_proxy" noProxyArg environ fun environ =>
            match hook environ hostname with
            | .ok bypass => .ok bypass
            | .error .typeError | .error .gaierror => .ok false
            | .error error => .error error

/-! ### `sessions.rs` -/

/-- An entry that is read as a network, or compared with the host. -/
def nativeAddress (hostname : Bytes) (address : Ipv4Addr) (proxyIp : Bytes) : Bool :=
  match ipv4Network lib proxyIp with
  | some (network, netmask) => maskAddress address netmask == network
  | none => hostname == proxyIp

/-- `to_str`. -/
def toStr (text : Bytes) : Except (PyError E) Bytes := if hasSurrogate text then .error .unicodeError else .ok text

/-- The loop over the hosts for a name. -/
def nativeNames (hostname hostWithPort : Bytes) : List Bytes → Except (PyError E) Bool
  | [] => .ok false
  | host :: rest => do
      let host := host.dropWhile (· == 46)
      if hostname = host then return true
      else
        let text ← toStr host
        if hostWithPort = text then return true
        else
          let suffix := 46 :: text
          if suffix.isSuffixOf hostname || suffix.isSuffixOf hostWithPort then return true
          else nativeNames hostname hostWithPort rest

def nativeList (hostname : Bytes) (port : Except Unit (Option Nat)) (noProxy : Option Bytes) :
    Except (PyError E) Bool :=
  match noProxy with
  | none | some [] => .ok false
  | some noProxy =>
      match ipv4Address hostname with
      | some address => .ok ((noProxyHosts noProxy).any (nativeAddress lib hostname address))
      | none => do
          let hostText ← toStr hostname
          let port ← port.mapError fun _ => .portError
          nativeNames hostname (hostWithPort hostText port) (noProxyHosts noProxy)

def shouldBypassEnvironmentProxy (environ : Environ) (url : ParsedUrl) (noProxyArgument : Option Bytes) :
    Except (PyError E) Bool × Environ :=
  match url.hostname with
  | none => (.ok true, environ)
  | some hostname =>
      match nativeList lib hostname url.port (getNoProxy environ noProxyArgument) with
      | .error error => (.error error, environ)
      | .ok true => (.ok true, environ)
      | .ok false =>
          let oldValue := environ "no_proxy"
          match noProxyArgument.elim (.ok environ) (environ.setItem lib "no_proxy") with
          | .error error => (.error error, environ)
          | .ok changed =>
              let result :=
                match hook changed hostname with
                | .ok bypass => .ok bypass
                | .error .typeError | .error .gaierror => .ok false
                | .error error => .error error
              match noProxyArgument, oldValue with
              | none, _ => (result, changed)
              | some _, none => (result, changed.del "no_proxy")
              | some _, some oldValue => (result, changed.set "no_proxy" oldValue)

end Functions

/-! ### Addresses as text -/

theorem parseOctet_decimal (n : UInt8) : parseOctet (decimal n.toNat) = some n := by
  have hlt : n.toNat < 256 := n.toNat_lt
  obtain ⟨hshort, hzero⟩ := decimal_octet n.toNat hlt
  rw [parseOctet, if_neg, if_neg, digitsValue_decimal, if_neg (by omega), UInt8.ofNat_toNat]
  · rintro ⟨hne, hfirst⟩
    obtain ⟨b, hb⟩ : ∃ b, decimal n.toNat = [b] := by
      have hlength := List.length_pos_iff.mpr (decimal_ne_nil n.toNat)
      exact List.length_eq_one_iff.mp (Nat.le_antisymm (hzero hfirst) hlength)
    rw [hb] at hne hfirst
    exact hne (congrArg (fun b => [b]) (Option.some.inj hfirst))
  · rintro (hnil | hdigits | hlong)
    · exact decimal_ne_nil n.toNat hnil
    · rw [decimal_digits] at hdigits
      cases hdigits
    · omega

theorem parseOctet_eq {octet : Bytes} {n : UInt8} (h : parseOctet octet = some n) : octet = decimal n.toNat := by
  unfold parseOctet at h
  split_ifs at h with hform hzero hlarge
  simp only [not_or, not_and, not_lt, Bool.not_eq_false] at hform hzero hlarge
  obtain rfl := Option.some.inj h
  have hvalue : (UInt8.ofNat (digitsValue octet)).toNat = digitsValue octet := by
    rw [UInt8.toNat_ofNat']
    omega
  rw [hvalue, decimal_digitsValue hform.1 hform.2.1]
  intro hfirst
  by_contra hlength
  exact hzero (fun heq => hlength (by rw [heq]; rfl)) hfirst

theorem dot_not_mem_decimal (n : Nat) : 46 ∉ decimal n := by
  intro hmem
  have hdigit := List.all_eq_true.mp (decimal_digits n) 46 hmem
  cases hdigit

theorem ipv4Address_dotted (address : Ipv4Addr) : ipv4Address address.dotted = some address := by
  have hsplit : address.dotted.splitOn 46 =
      [decimal address.a.toNat, decimal address.b.toNat, decimal address.c.toNat, decimal address.d.toNat] := by
    rw [Ipv4Addr.dotted, List.splitOn_append_cons_self_of_not_mem (dot_not_mem_decimal _),
      List.splitOn_append_cons_self_of_not_mem (dot_not_mem_decimal _),
      List.splitOn_append_cons_self_of_not_mem (dot_not_mem_decimal _), List.splitOn_eq_singleton (dot_not_mem_decimal _)]
  rw [ipv4Address, hsplit]
  simp only [parseOctet_decimal]
  rfl

theorem ipv4Address_eq {text : Bytes} {address : Ipv4Addr} (h : ipv4Address text = some address) :
    text = address.dotted := by
  unfold ipv4Address at h
  split at h
  · next a b c d hsplit =>
      have htext : [46].intercalate (text.splitOn 46) = text := List.intercalate_splitOn 46
      simp only [Option.bind_eq_bind, Option.bind_eq_some_iff] at h
      obtain ⟨a', ha, b', hb, c', hc, d', hd, heq⟩ := h
      obtain rfl := Option.some.inj heq
      rw [← htext, hsplit, parseOctet_eq ha, parseOctet_eq hb, parseOctet_eq hc, parseOctet_eq hd]
      simp [List.intercalate, List.intersperse, Ipv4Addr.dotted]
  · cases h

theorem slash_not_mem_dotted (address : Ipv4Addr) : 47 ∉ address.dotted := by
  have hdecimal (n : Nat) : 47 ∉ decimal n := by
    intro hmem
    have hdigit := List.all_eq_true.mp (decimal_digits n) 47 hmem
    cases hdigit
  simp [Ipv4Addr.dotted, hdecimal]

theorem maskAddress_idem (address mask : Ipv4Addr) :
    maskAddress (maskAddress address mask) mask = maskAddress address mask := by
  simp [maskAddress, UInt8.and_assoc]

theorem maskAddress_full (address : Ipv4Addr) : maskAddress address (prefixMask 32) = address := by
  have hmask : prefixMask 32 = ⟨255, 255, 255, 255⟩ := by decide
  have hfull (b : UInt8) : b &&& 255 = b := UInt8.and_neg_one
  simp [maskAddress, hmask, hfull]

/-! ### How the lists are read -/

/-- How a list of entries is gone through. -/
structure Reading (E : Type) where
  /-- An error before the first entry. -/
  start : Option (PyError E) := none
  names : Bytes → Bool := fun _ => false
  /-- The entries that raise. -/
  raises : Bytes → Option (PyError E) := fun _ => none

namespace Reading

variable {E : Type} (reading : Reading E)

/-- An entry names the host, and nothing is raised up to there. -/
def found (entries : List Bytes) : Bool :=
  reading.start.isNone && (entries.takeWhile fun entry => (reading.raises entry).isNone).any reading.names

/-- The first error. -/
def error (entries : List Bytes) : Option (PyError E) := reading.start.or (entries.findSome? reading.raises)

def verdict (entries : List Bytes) : Except (PyError E) Bool :=
  if reading.found entries then .ok true else (reading.error entries).elim (.ok false) .error

theorem verdict_start {error : PyError E} (h : reading.start = some error) (entries : List Bytes) :
    reading.verdict entries = .error error := by
  simp [verdict, found, Reading.error, h]

theorem verdict_nil (h : reading.start = none) : reading.verdict [] = .ok false := by
  simp [verdict, found, error, h]

theorem verdict_cons (h : reading.start = none) (entry : Bytes) (rest : List Bytes) :
    reading.verdict (entry :: rest) =
      match reading.raises entry with
      | some error => .error error
      | none => if reading.names entry then .ok true else reading.verdict rest := by
  cases hraises : reading.raises entry with
  | some raised => simp [verdict, found, error, h, hraises]
  | none => cases hnames : reading.names entry <;> simp [verdict, found, error, h, hraises, hnames]

theorem verdict_any (h : reading.start = none) (hraises : ∀ entry, reading.raises entry = none) (entries : List Bytes) :
    reading.verdict entries = .ok (entries.any reading.names) := by
  induction entries with
  | nil => exact reading.verdict_nil h
  | cons entry rest ih =>
      rw [reading.verdict_cons h, hraises, ih, List.any_cons]
      cases reading.names entry <;> rfl

/-- Both find the host, or neither does and the first errors are the same, where `no` is the error of saying no. -/
def Alike (no : Option (PyError E)) (native python : Reading E) (entries : List Bytes) : Prop :=
  (native.found entries = true ∧ python.found entries = true) ∨
    (native.found entries = false ∧ python.found entries = false ∧
      (native.error entries).or no = (python.error entries).or no)

end Reading

/-! ### When the lists decide alike -/

section Alike

variable {E : Type} (lib : Stdlib E)

/-- An address and a number of bits, as `utils.py` reads them. -/
def pythonBlock (entry : Bytes) : Option (Ipv4Addr × Nat) :=
  match entry.splitOn 47 with
  | [address, bits] =>
      match lib.int bits, lib.inetAton address with
      | some bits, .ok address => if 1 ≤ bits ∧ bits ≤ 32 then some (address, bits.toNat) else none
      | _, _ => none
  | _ => none

/-- The error of an address with a number of bits that `inet_aton` does not even reject: it has a null character or a
surrogate. -/
def unreadable (entry : Bytes) : Option (PyError E) :=
  match entry.splitOn 47 with
  | [address, bits] =>
      match lib.int bits, lib.inetAton address with
      | some _, .error .osError => none
      | some bits, .error error => if 1 ≤ bits ∧ bits ≤ 32 then some error else none
      | _, _ => none
  | _ => none

/-- Four octets and a number of bits or a mask, as `ipaddress` reads them. -/
def nativeBlock (entry : Bytes) : Option (Ipv4Addr × Nat) :=
  match entry.splitOn 47 with
  | [address, mask] =>
      match ipv4Address address, (prefixFromPrefixString lib mask).or (prefixFromIpString mask) with
      | some address, some bits => some (address, bits)
      | _, _ => none
  | _ => none

def inBlock (address : Ipv4Addr) (block : Ipv4Addr × Nat) : Bool :=
  maskAddress address (prefixMask block.2) == maskAddress block.1 (prefixMask block.2)

/-- An address is looked for among blocks and addresses. -/
def addressReading (hostname : Bytes) (address : Ipv4Addr) : Reading E where
  names entry := (pythonBlock lib entry).elim (hostname == entry) (inBlock address)
  raises := unreadable lib

/-- A name is looked for among names that must have UTF-8. -/
def nameReading (hostname : Bytes) (port : Option Nat) : Reading E where
  names := namesHost hostname port
  raises entry := if hasSurrogate entry then some .unicodeError else none

/-- How `utils.py` reads the list. -/
def pythonReading (url : ParsedUrl) (hostname : Bytes) : Reading E :=
  match lib.inetAton hostname with
  | .ok address => addressReading lib hostname address
  | .error .osError =>
      match url.port with
      | .error _ => { start := some .portError }
      | .ok port => { names := namesHost hostname port }
  | .error error => { start := some error }

/-- How `sessions.rs` reads it: only four octets are an address, and a name with a surrogate raises. -/
def nativeReading (url : ParsedUrl) (hostname : Bytes) : Reading E :=
  match ipv4Address hostname with
  | some address => { names := fun entry => hostname == entry || (nativeBlock lib entry).any (inBlock address) }
  | none =>
      if hasSurrogate hostname then { start := some .unicodeError }
      else
        match url.port with
        | .error _ => { start := some .portError }
        | .ok port => nameReading hostname port

/-- Where the two lists come to the same. Where the list says no and the variable cannot be set, this is an error too. -/
def ListsAgree (environ : Environ) (url : ParsedUrl) (noProxyArg : Option Bytes) : Prop :=
  match url.hostname, getNoProxy environ noProxyArg with
  | none, _ | _, none | _, some [] => True
  | some hostname, some noProxy =>
      Reading.Alike (noProxyArg.bind lib.unsettable) (nativeReading lib url hostname) (pythonReading lib url hostname)
        (noProxyHosts noProxy)

variable {lib} {hostname : Bytes} {address : Ipv4Addr}

theorem quad_ne {entry : Bytes} (hquad : ipv4Address hostname = some address) (hslash : entry.splitOn 47 ≠ [entry]) :
    hostname ≠ entry := by
  rintro rfl
  rw [ipv4Address_eq hquad] at hslash
  exact hslash (List.splitOn_eq_singleton (slash_not_mem_dotted address))

theorem nativeAddress_quad (hquad : ipv4Address hostname = some address) (entry : Bytes) :
    nativeAddress lib hostname address entry =
      (hostname == entry || (nativeBlock lib entry).any (inBlock address)) := by
  unfold nativeAddress ipv4Network nativeBlock
  have hentry : [47].intercalate (entry.splitOn 47) = entry := List.intercalate_splitOn 47
  split
  · next network netmask hnetwork =>
      split at hnetwork
      · next text hsplit =>
          rw [hsplit] at hentry
          obtain rfl : text = entry := by simpa [List.intercalate] using hentry
          obtain ⟨other, hother, heq⟩ := Option.map_eq_some_iff.mp hnetwork
          obtain ⟨rfl, rfl⟩ := Prod.mk.inj heq
          -- A single address is the host exactly if it is the same text.
          have hsame : address = other ↔ hostname = text := by
            constructor
            · rintro rfl
              rw [ipv4Address_eq hquad, ipv4Address_eq hother]
            · rintro rfl
              exact Option.some.inj (hquad.symm.trans hother)
          rw [maskAddress_full, maskAddress_full, hsplit, Bool.eq_iff_iff]
          simp [hsame]
      · next netaddr mask hsplit =>
          have hne : hostname ≠ entry := quad_ne hquad (by rw [hsplit]; simp)
          split at hnetwork
          · next base bits hbase hbits =>
              obtain ⟨rfl, rfl⟩ := Prod.mk.inj (Option.some.inj hnetwork)
              rw [hsplit]
              simp only [hbase, hbits, Option.any_some, inBlock]
              simp [hne]
          · cases hnetwork
      · cases hnetwork
  · next hnetwork =>
      split at hnetwork
      · next text hsplit =>
          rw [hsplit]
          simp
      · next netaddr mask hsplit =>
          split at hnetwork
          · cases hnetwork
          · next hnone =>
              rw [hsplit]
              simp
      · next hother =>
          split
          · next netaddr mask hsplit => exact absurd hsplit (hother netaddr mask)
          · simp

theorem hasSurrogate_dropWhile (text : Bytes) : hasSurrogate (text.dropWhile (· == 46)) = hasSurrogate text := by
  induction text with
  | nil => rfl
  | cons b rest ih =>
      by_cases hdot : b = 46
      · subst hdot
        rw [List.dropWhile_cons_of_pos (by rfl), ih]
        cases rest <;> rfl
      · rw [List.dropWhile_cons_of_neg (by simpa using hdot)]

theorem nativeNames_eq {hostname : Bytes} (hhost : hasSurrogate hostname = false) (port : Option Nat) (entries : List Bytes) :
    (nativeNames hostname (hostWithPort hostname port) entries : Except (PyError E) Bool) =
      (nameReading hostname port).verdict entries := by
  induction entries with
  | nil => exact (Reading.verdict_nil _ rfl).symm
  | cons entry rest ih =>
      rw [Reading.verdict_cons _ rfl, nativeNames, ih, toStr, hasSurrogate_dropWhile]
      simp only [nameReading]
      cases hsurrogate : hasSurrogate entry with
      | true =>
          have hne : hostname ≠ entry.dropWhile (· == 46) := by
            intro heq
            rw [heq, hasSurrogate_dropWhile, hsurrogate] at hhost
            cases hhost
          rw [if_neg hne]
          rfl
      | false =>
          have hnames : namesHost hostname port entry =
              (hostname == entry.dropWhile (· == 46) || hostWithPort hostname port == entry.dropWhile (· == 46) ||
                (46 :: entry.dropWhile (· == 46)).isSuffixOf hostname ||
                (46 :: entry.dropWhile (· == 46)).isSuffixOf (hostWithPort hostname port)) := rfl
          generalize entry.dropWhile (· == 46) = host at hnames ⊢
          simp only [hnames, Bool.false_eq_true, if_false]
          by_cases hsame : hostname = host
          · simp [hsame, Pure.pure, Except.pure]
          · by_cases hport : hostWithPort hostname port = host
            · simp [hsame, hport, Pure.pure, Except.pure, Bind.bind, Except.bind]
            · simp [hsame, hport, Pure.pure, Except.pure, Bind.bind, Except.bind]

theorem nativeList_eq (url : ParsedUrl) (hostname : Bytes) {noProxy : Bytes} (hne : noProxy ≠ []) :
    nativeList lib hostname url.port (some noProxy) = (nativeReading lib url hostname).verdict (noProxyHosts noProxy) := by
  obtain ⟨b, rest, rfl⟩ := List.exists_cons_of_ne_nil hne
  simp only [nativeList, nativeReading]
  cases hquad : ipv4Address hostname with
  | some address =>
      rw [Reading.verdict_any _ rfl fun _ => rfl]
      simp only [← nativeAddress_quad hquad]
  | none =>
      simp only [toStr]
      cases hsurrogate : hasSurrogate hostname with
      | true =>
          rw [if_pos rfl, if_pos rfl, Reading.verdict_start _ rfl]
          rfl
      | false =>
          rw [if_neg (by simp), if_neg (by simp)]
          cases url.port with
          | error _ =>
              rw [Reading.verdict_start _ rfl]
              rfl
          | ok port => exact nativeNames_eq hsurrogate port _

variable (hlib : lib.Documented)
include hlib

theorem inetAton_dottedNetmask {bits : Int} (hbits : 1 ≤ bits ∧ bits ≤ 32) :
    lib.inetAton (dottedNetmask bits) = .ok (prefixMask bits.toNat) := by
  have hshift : (32 - bits).toNat = 32 - bits.toNat := by omega
  rw [dottedNetmask, hshift, hlib.quad (ipv4Address_dotted _)]
  rfl

theorem isValidCidr_cases (entry : Bytes) :
    (isValidCidr lib entry = .ok false ∧ pythonBlock lib entry = none ∧ unreadable lib entry = none) ∨
    (∃ error, isValidCidr lib entry = .error error ∧ unreadable lib entry = some error) ∨
    (∃ netaddr bits mask network, entry.splitOn 47 = [netaddr, bits] ∧ lib.int bits = some mask ∧ (1 ≤ mask ∧ mask ≤ 32) ∧
      lib.inetAton netaddr = .ok network ∧ isValidCidr lib entry = .ok true ∧
      pythonBlock lib entry = some (network, mask.toNat) ∧ unreadable lib entry = none) := by
  unfold isValidCidr pythonBlock unreadable
  split
  · next netaddr bits hsplit =>
      cases hint : lib.int bits with
      | none => exact .inl ⟨rfl, rfl, rfl⟩
      | some mask =>
          by_cases hmask : 1 ≤ mask ∧ mask ≤ 32
          · have hrange : ¬(mask < 1 ∨ 32 < mask) := by omega
            cases haton : lib.inetAton netaddr with
            | ok network => exact .inr (.inr ⟨netaddr, bits, mask, network, hsplit, hint, hmask, haton, by simp [hmask, hrange]⟩)
            | error error =>
                obtain rfl | rfl | rfl := hlib.raises haton
                · exact .inl (by simp [hrange])
                · exact .inr (.inl ⟨.valueError, by simp [hmask, hrange]⟩)
                · exact .inr (.inl ⟨.unicodeError, by simp [hmask, hrange]⟩)
          · have hrange : mask < 1 ∨ 32 < mask := by omega
            refine .inl ⟨by simp [hrange], ?_, ?_⟩
            · cases lib.inetAton netaddr <;> simp [hmask]
            · cases haton : lib.inetAton netaddr with
              | ok network => rfl
              | error error => obtain rfl | rfl | rfl := hlib.raises haton <;> simp [hmask]
  · exact .inl ⟨rfl, rfl, rfl⟩

theorem bypassesAddress_eq (haddress : lib.inetAton hostname = .ok address) (entries : List Bytes) :
    bypassesAddress lib hostname entries = (addressReading lib hostname address).verdict entries := by
  induction entries with
  | nil => exact (Reading.verdict_nil _ rfl).symm
  | cons entry rest ih =>
      rw [Reading.verdict_cons _ rfl, ← ih]
      obtain ⟨hcidr, hblock, hread⟩ | ⟨error, hcidr, hread⟩ |
          ⟨netaddr, bits, mask, network, hsplit, hint, hmask, haton, hcidr, hblock, hread⟩ := isValidCidr_cases hlib entry
      · simp only [bypassesAddress, addressReading, hcidr, hblock, hread, Option.elim_none, beq_iff_eq]
        rfl
      · simp only [bypassesAddress, addressReading, hcidr, hread]
        rfl
      · have hcontains : addressInNetwork lib hostname entry = .ok (inBlock address (network, mask.toNat)) := by
          simp only [addressInNetwork, haddress, hsplit, hint, inetAton_dottedNetmask hlib hmask, haton]
          simp [inBlock, maskAddress_idem, Bind.bind, Except.bind, Pure.pure, Except.pure]
        simp only [bypassesAddress, addressReading, hcidr, hblock, hread, hcontains, Option.elim_some]
        cases inBlock address (network, mask.toNat) <;> rfl

theorem pythonList_eq (url : ParsedUrl) (hostname : Bytes) {noProxy : Bytes} (hne : noProxy ≠ []) :
    pythonList lib hostname url.port (some noProxy) = (pythonReading lib url hostname).verdict (noProxyHosts noProxy) := by
  obtain ⟨b, rest, rfl⟩ := List.exists_cons_of_ne_nil hne
  simp only [pythonList, pythonReading, isIpv4Address]
  cases haton : lib.inetAton hostname with
  | ok address =>
      rw [← bypassesAddress_eq hlib haton]
      rfl
  | error error =>
      obtain rfl | rfl | rfl := hlib.raises haton
      · cases url.port with
        | error _ =>
            rw [Reading.verdict_start _ rfl]
            rfl
        | ok port =>
            rw [Reading.verdict_any _ rfl fun _ => rfl]
            rfl
      · rw [Reading.verdict_start _ rfl]
        rfl
      · rw [Reading.verdict_start _ rfl]
        rfl

omit hlib in
theorem Environ.restore (environ : Environ) (name : String) (value : Bytes) :
    (∀ old, environ name = some old → (environ.set name value).set name old = environ) ∧
    (environ name = none → (environ.set name value).del name = environ) := by
  constructor
  · intro old hold
    funext other
    by_cases hname : other = name
    · rw [Environ.set, if_pos hname, hname, hold]
    · rw [Environ.set, if_neg hname, Environ.set, if_neg hname]
  · intro hold
    funext other
    by_cases hname : other = name
    · rw [Environ.del, if_pos hname, hname, hold]
    · rw [Environ.del, if_neg hname, Environ.set, if_neg hname]

end Alike

/-! ### Both functions -/

section Answers

variable {E : Type} {lib : Stdlib E}

/-- What the platform says, where an error of two kinds is a no. -/
def platformAnswer (hook : PlatformHook E) (environ : Environ) (hostname : Bytes) : Except (PyError E) Bool :=
  match hook environ hostname with
  | .ok bypass => .ok bypass
  | .error .typeError | .error .gaierror => .ok false
  | .error error => .error error

/-- The list decides, and the platform where the list says no. -/
def answerOf (list platform : Except (PyError E) Bool) : Except (PyError E) Bool :=
  match list with
  | .error error => .error error
  | .ok true => .ok true
  | .ok false => platform

theorem answerOf_no (list : Except (PyError E) Bool) : answerOf list (.ok false) = list := by
  match list with
  | .error error | .ok true | .ok false => rfl

/-- Behind the list comes the platform, with the variable set, or the error of setting it. -/
def afterList (lib : Stdlib E) (hook : PlatformHook E) (environ : Environ) (noProxy : Option Bytes) (hostname : Bytes) :
    Except (PyError E) Bool :=
  (noProxy.bind lib.unsettable).elim (platformAnswer hook (noProxy.elim environ (environ.set "no_proxy")) hostname) .error

theorem setEnviron_eq {α : Type} (value : Option Bytes) (environ : Environ) (body : Environ → Except (PyError E) α) :
    setEnviron lib "no_proxy" value environ body =
      ((value.bind lib.unsettable).elim (body (value.elim environ (environ.set "no_proxy"))) .error, environ) := by
  cases value with
  | none => rfl
  | some value =>
      obtain ⟨hset, hdel⟩ := environ.restore "no_proxy" value
      cases hunsettable : lib.unsettable value with
      | some error => simp [setEnviron, Environ.setItem, hunsettable]
      | none =>
          cases hold : environ "no_proxy" with
          | none => simp [setEnviron, Environ.setItem, hunsettable, hold, hdel hold]
          | some old => simp [setEnviron, Environ.setItem, hunsettable, hold, hset old hold]

theorem shouldBypassProxies_eq (hook : PlatformHook E) (environ : Environ) {url : ParsedUrl} {hostname : Bytes}
    (hhost : url.hostname = some hostname) (noProxy : Option Bytes) :
    shouldBypassProxies lib hook environ url noProxy =
      (answerOf (pythonList lib hostname url.port (getNoProxy environ noProxy))
        (afterList lib hook environ noProxy hostname), environ) := by
  simp only [shouldBypassProxies, hhost, setEnviron_eq]
  match pythonList lib hostname url.port (getNoProxy environ noProxy) with
  | .error error | .ok true | .ok false => rfl

theorem shouldBypassEnvironmentProxy_eq (hook : PlatformHook E) (environ : Environ) {url : ParsedUrl} {hostname : Bytes}
    (hhost : url.hostname = some hostname) (noProxy : Option Bytes) :
    shouldBypassEnvironmentProxy lib hook environ url noProxy =
      (answerOf (nativeList lib hostname url.port (getNoProxy environ noProxy))
        (afterList lib hook environ noProxy hostname), environ) := by
  simp only [shouldBypassEnvironmentProxy, hhost]
  match nativeList lib hostname url.port (getNoProxy environ noProxy) with
  | .error error | .ok true => rfl
  | .ok false =>
      cases noProxy with
      | none => rfl
      | some value =>
          obtain ⟨hset, hdel⟩ := environ.restore "no_proxy" value
          simp only [Option.elim_some, Environ.setItem, afterList, Option.bind_some]
          cases lib.unsettable value with
          | some error => rfl
          | none =>
              cases hold : environ "no_proxy" with
              | none => exact congrArg (Prod.mk _) (hdel hold)
              | some old => exact congrArg (Prod.mk _) (hset old hold)

theorem answerOf_verdict (reading : Reading E) (entries : List Bytes) (no : Option (PyError E)) :
    answerOf (reading.verdict entries) (no.elim (.ok false) .error) =
      if reading.found entries then .ok true else ((reading.error entries).or no).elim (.ok false) .error := by
  unfold Reading.verdict
  split_ifs with hfound
  · rfl
  · cases reading.error entries <;> rfl

theorem alike_iff (native python : Reading E) (entries : List Bytes) (no : Option (PyError E)) :
    answerOf (native.verdict entries) (no.elim (.ok false) .error) =
        answerOf (python.verdict entries) (no.elim (.ok false) .error) ↔
      Reading.Alike no native python entries := by
  have helim (first second : Option (PyError E)) :
      first.elim (.ok false) .error = (second.elim (.ok false) .error : Except (PyError E) Bool) ↔ first = second := by
    cases first <;> cases second <;> simp
  have hyes (first : Option (PyError E)) : first.elim (.ok false) .error ≠ (.ok true : Except (PyError E) Bool) := by
    cases first <;> simp
  rw [answerOf_verdict, answerOf_verdict, Reading.Alike]
  cases native.found entries <;> cases python.found entries <;> simp [helim, hyes, (hyes _).symm]

/-- Whatever the platform says, the answers are the same and `no_proxy` is as it was, exactly where the lists agree. -/
theorem bypass_agrees_iff (hlib : lib.Documented) (environ : Environ) (url : ParsedUrl) (noProxy : Option Bytes) :
    (∀ hook, shouldBypassEnvironmentProxy lib hook environ url noProxy = shouldBypassProxies lib hook environ url noProxy ∧
      (shouldBypassEnvironmentProxy lib hook environ url noProxy).2 "no_proxy" = environ "no_proxy") ↔
    ListsAgree lib environ url noProxy := by
  cases hhost : url.hostname with
  | none =>
      refine iff_of_true (fun hook => ?_) ?_
      · simp [shouldBypassEnvironmentProxy, shouldBypassProxies, hhost]
      · simp [ListsAgree, hhost]
  | some hostname =>
      simp only [shouldBypassEnvironmentProxy_eq _ _ hhost, shouldBypassProxies_eq _ _ hhost, ListsAgree, hhost]
      cases hlist : getNoProxy environ noProxy with
      | none => simp [nativeList, pythonList]
      | some list =>
          by_cases hempty : list = []
          · subst hempty
            simp [nativeList, pythonList]
          · obtain ⟨b, rest, rfl⟩ := List.exists_cons_of_ne_nil hempty
            rw [nativeList_eq url hostname hempty, pythonList_eq hlib url hostname hempty]
            refine Iff.trans ?_ (alike_iff _ _ _ _)
            constructor
            · intro h
              -- A platform that has no exceptions of its own shows what the lists say.
              have hno : afterList lib (fun _ _ => .ok false) environ noProxy hostname =
                  (noProxy.bind lib.unsettable).elim (.ok false) .error := rfl
              have hsame := congrArg Prod.fst (h fun _ _ => .ok false).1
              rwa [hno] at hsame
            · intro heq hook
              refine ⟨?_, trivial⟩
              unfold afterList
              cases hunsettable : noProxy.bind lib.unsettable with
              | some error =>
                  rw [hunsettable] at heq
                  exact congrArg (Prod.mk · environ) heq
              | none =>
                  rw [hunsettable, Option.elim_none, answerOf_no, answerOf_no] at heq
                  rw [heq]

/-- A library that knows the numbers of plain digits and the addresses of four octets. -/
def Stdlib.plain : Stdlib E where
  inetAton text := (ipv4Address text).elim (.error (if hasSurrogate text then .unicodeError else .osError)) .ok
  int text := if text ≠ [] ∧ text.all isAsciiDigit = true then some (digitsValue text) else none
  unsettable _ := none

theorem Stdlib.plain_documented : (Stdlib.plain : Stdlib E).Documented where
  quad {text address} h := by
    change (ipv4Address text).elim _ _ = _
    rw [h]
    rfl
  raises {text error} h := by
    change (ipv4Address text).elim _ _ = _ at h
    cases hquad : ipv4Address text with
    | none =>
        rw [hquad] at h
        rw [← Except.error.inj h]
        split_ifs
        · exact .inr (.inr rfl)
        · exact .inl rfl
    | some address =>
        rw [hquad] at h
        cases h

def plainUrl (hostname : Bytes) : ParsedUrl where
  hostname := some hostname
  port := .ok none

theorem bypass_agrees_in_block : (Stdlib.plain : Stdlib Unit).Documented ∧
    ((∀ hook, shouldBypassEnvironmentProxy (Stdlib.plain : Stdlib Unit) hook (fun _ => none) (plainUrl (text "10.1.2.3"))
        (some (text "10.0.0.0/8, localhost")) =
      shouldBypassProxies Stdlib.plain hook (fun _ => none) (plainUrl (text "10.1.2.3"))
        (some (text "10.0.0.0/8, localhost")) ∧
      (shouldBypassEnvironmentProxy (Stdlib.plain : Stdlib Unit) hook (fun _ => none) (plainUrl (text "10.1.2.3"))
        (some (text "10.0.0.0/8, localhost"))).2 "no_proxy" = none) ↔
    ListsAgree (Stdlib.plain : Stdlib Unit) (fun _ => none) (plainUrl (text "10.1.2.3"))
      (some (text "10.0.0.0/8, localhost"))) :=
  ⟨Stdlib.plain_documented, bypass_agrees_iff Stdlib.plain_documented (fun _ => none) (plainUrl (text "10.1.2.3"))
    (some (text "10.0.0.0/8, localhost"))⟩

/-- A prefix of no bits is every address here and no address in Python. -/
theorem bypass_differs_for_all_addresses :
    (shouldBypassEnvironmentProxy (Stdlib.plain : Stdlib Unit) (fun _ _ => .ok false) (fun _ => none)
      (plainUrl (text "10.1.2.3")) (some (text "0.0.0.0/0"))).1 = .ok true ∧
    (shouldBypassProxies (Stdlib.plain : Stdlib Unit) (fun _ _ => .ok false) (fun _ => none)
      (plainUrl (text "10.1.2.3")) (some (text "0.0.0.0/0"))).1 = .ok false := by
  exact ⟨by rfl, by rfl⟩

end Answers

end RequestsNative.Python
