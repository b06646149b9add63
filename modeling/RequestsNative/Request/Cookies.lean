import RequestsNative.Base
import RequestsNative.Lib.IndexMap

/-!
# Cookie snapshots

`cookies.rs` answers lookups from a snapshot of a jar, where `cookies.py` walks over the jar itself. Both are loops over the same
cookies with different accumulators: an option and an early return, a vector that is searched and a dictionary, a list of
domains with and without the missing ones. They give the same answers.

A Python text and the `String` it is copied to are the same bytes; both sides only compare them.
-/

namespace RequestsNative.Request

open RequestsNative.Lib

/-- The fields of a cookie that are looked up. -/
structure CookieSnapshot where
  name : Bytes
  value : Option Bytes
  domain : Option Bytes
  path : Option Bytes
  deriving DecidableEq, Repr

structure JarSnapshot where
  cookies : List CookieSnapshot

structure LookupQuery where
  name : Bytes
  domain : Option Bytes
  path : Option Bytes

inductive LookupValue
  | value (value : Bytes)
  | missing
  | conflict
  deriving DecidableEq, Repr

/-! ### `cookies.rs` -/

namespace JarSnapshot

/-- The test of `matching`. -/
def isMatch (query : LookupQuery) (cookie : CookieSnapshot) : Bool :=
  cookie.name == query.name && query.domain.all (fun domain => cookie.domain == some domain) &&
    query.path.all (fun path => cookie.path == some path)

def matching (jar : JarSnapshot) (query : LookupQuery) : List CookieSnapshot := jar.cookies.filter (isMatch query)

/-- The loop of `find_no_duplicates`, over the cookies that match. -/
def findNoDuplicatesFrom : Option Bytes → List CookieSnapshot → LookupValue
  | some value, [] => .value value
  | none, [] => .missing
  | some _, _ :: _ => .conflict
  | none, cookie :: rest => findNoDuplicatesFrom cookie.value rest

def findNoDuplicates (jar : JarSnapshot) (query : LookupQuery) : LookupValue := findNoDuplicatesFrom none (jar.matching query)

/-- Write a value into the first pair with the name, or behind the others. -/
def setValue : List (Bytes × Option Bytes) → Bytes → Option Bytes → List (Bytes × Option Bytes)
  | [], name, value => [(name, value)]
  | pair :: rest, name, value => if pair.1 = name then (pair.1, value) :: rest else pair :: setValue rest name value

def getDict (jar : JarSnapshot) (domain path : Option Bytes) : List (Bytes × Option Bytes) :=
  jar.cookies.foldl (fun values cookie =>
    if domain.any (fun selected => cookie.domain != some selected) || path.any (fun selected => cookie.path != some selected) then
      values
    else setValue values cookie.name cookie.value) []

/-- The loop of `domains` and `paths`: the values of a field, each once. -/
def distinct (field : CookieSnapshot → Option Bytes) (cookies : List CookieSnapshot) : List (Option Bytes) :=
  cookies.foldl (fun seen cookie => if !seen.contains (field cookie) then seen ++ [field cookie] else seen) []

def domains (jar : JarSnapshot) : List (Option Bytes) := distinct CookieSnapshot.domain jar.cookies

def paths (jar : JarSnapshot) : List (Option Bytes) := distinct CookieSnapshot.path jar.cookies

/-- The loop of `multiple_domains`. -/
def multipleDomainsFrom : List Bytes → List CookieSnapshot → Bool
  | _, [] => false
  | domains, cookie :: rest =>
      match cookie.domain with
      | none => multipleDomainsFrom domains rest
      | some domain => if domains.contains domain then true else multipleDomainsFrom (domains ++ [domain]) rest

def multipleDomains (jar : JarSnapshot) : Bool := multipleDomainsFrom [] jar.cookies

end JarSnapshot

/-! ### `cookies.py` -/

/-- What a lookup raises, with what its message shows. -/
inductive LookupError
  | keyError (name : Bytes) (domain path : Option Bytes)
  | cookieConflictError (name : Bytes)
  deriving DecidableEq, Repr

/-- A jar, by the cookies an iteration over it yields. -/
structure RequestsCookieJar where
  cookies : List CookieSnapshot

namespace RequestsCookieJar

/-- The loop of `_find_no_duplicates`. -/
def findNoDuplicatesFrom (name : Bytes) (domain path : Option Bytes) :
    Option Bytes → List CookieSnapshot → Except LookupError Bytes
  | toReturn, [] =>
      match toReturn with
      | some value => .ok value
      | none => .error (.keyError name domain path)
  | toReturn, cookie :: rest =>
      if cookie.name = name ∧ (domain = none ∨ cookie.domain = domain) ∧ (path = none ∨ cookie.path = path) then
        if toReturn ≠ none then .error (.cookieConflictError name) else findNoDuplicatesFrom name domain path cookie.value rest
      else findNoDuplicatesFrom name domain path toReturn rest

def findNoDuplicates (jar : RequestsCookieJar) (name : Bytes) (domain path : Option Bytes) : Except LookupError Bytes :=
  findNoDuplicatesFrom name domain path none jar.cookies

def getDict (jar : RequestsCookieJar) (domain path : Option Bytes) : IndexMap Bytes (Option Bytes) :=
  jar.cookies.foldl (fun dictionary cookie =>
    if (domain = none ∨ cookie.domain = domain) ∧ (path = none ∨ cookie.path = path) then
      dictionary.insert cookie.name cookie.value
    else dictionary) IndexMap.empty

def listDomains (jar : RequestsCookieJar) : List (Option Bytes) :=
  jar.cookies.foldl (fun domains cookie => if cookie.domain ∉ domains then domains ++ [cookie.domain] else domains) []

def listPaths (jar : RequestsCookieJar) : List (Option Bytes) :=
  jar.cookies.foldl (fun paths cookie => if cookie.path ∉ paths then paths ++ [cookie.path] else paths) []

/-- The loop of `multiple_domains`. -/
def multipleDomainsFrom : List (Option Bytes) → List CookieSnapshot → Bool
  | _, [] => false
  | domains, cookie :: rest =>
      if cookie.domain ≠ none ∧ cookie.domain ∈ domains then true else multipleDomainsFrom (domains ++ [cookie.domain]) rest

def multipleDomains (jar : RequestsCookieJar) : Bool := multipleDomainsFrom [] jar.cookies

/-- The snapshot of a jar. -/
def snapshot (jar : RequestsCookieJar) : JarSnapshot := ⟨jar.cookies⟩

end RequestsCookieJar

/-- What a lookup of the jar is for the snapshot. -/
def observed : Except LookupError Bytes → LookupValue
  | .ok value => .value value
  | .error (.keyError _ _ _) => .missing
  | .error (.cookieConflictError _) => .conflict

/-! ### Lookups -/

theorem meets_iff {wanted field : Option Bytes} :
    wanted.all (fun selected => field == some selected) = true ↔ wanted = none ∨ field = wanted := by
  cases wanted <;> simp

theorem isMatch_iff {name : Bytes} {domain path : Option Bytes} {cookie : CookieSnapshot} :
    JarSnapshot.isMatch ⟨name, domain, path⟩ cookie = true ↔
      cookie.name = name ∧ (domain = none ∨ cookie.domain = domain) ∧ (path = none ∨ cookie.path = path) := by
  rw [JarSnapshot.isMatch, Bool.and_eq_true, Bool.and_eq_true, beq_iff_eq, meets_iff, meets_iff, and_assoc]

theorem any_ne (wanted field : Option Bytes) :
    wanted.any (fun selected => field != some selected) = !wanted.all (fun selected => field == some selected) := by
  cases wanted <;> rfl

theorem findNoDuplicatesFrom_eq (name : Bytes) (domain path toReturn : Option Bytes) (cookies : List CookieSnapshot) :
    JarSnapshot.findNoDuplicatesFrom toReturn (JarSnapshot.matching ⟨cookies⟩ ⟨name, domain, path⟩) =
      observed (RequestsCookieJar.findNoDuplicatesFrom name domain path toReturn cookies) := by
  induction cookies generalizing toReturn with
  | nil => cases toReturn <;> rfl
  | cons cookie cookies ih =>
      rw [JarSnapshot.matching, RequestsCookieJar.findNoDuplicatesFrom]
      by_cases hcookie : cookie.name = name ∧ (domain = none ∨ cookie.domain = domain) ∧ (path = none ∨ cookie.path = path)
      · rw [List.filter_cons_of_pos (isMatch_iff.mpr hcookie), if_pos hcookie]
        cases toReturn with
        | none =>
            rw [if_neg (fun h => h rfl)]
            exact ih cookie.value
        | some value =>
            rw [if_pos (Option.some_ne_none value)]
            rfl
      · rw [List.filter_cons_of_neg (fun h => hcookie (isMatch_iff.mp h)), if_neg hcookie]
        exact ih toReturn

/-! ### Dictionaries -/

theorem setValue_eq_write {values : List (Bytes × Option Bytes)} (hnodup : (values.map Prod.fst).Nodup) (name : Bytes)
    (value : Option Bytes) : JarSnapshot.setValue values name value = IndexMap.write values name value := by
  induction values with
  | nil => rfl
  | cons pair rest ih =>
      obtain ⟨hnew, hrest⟩ := List.nodup_cons.mp hnodup
      rw [JarSnapshot.setValue]
      by_cases hpair : pair.1 = name
      · subst hpair
        have hsame : rest.map (fun entry => if entry.1 = pair.1 then (pair.1, value) else entry) = rest := by
          refine (List.map_congr_left fun entry hentry => ?_).trans (List.map_id rest)
          rw [if_neg (fun heq => hnew (List.mem_map.mpr ⟨entry, hentry, heq⟩))]
          rfl
        have hmem : pair.1 ∈ (pair :: rest).map Prod.fst := List.mem_cons_self
        rw [if_pos rfl, IndexMap.write, if_pos hmem, List.map_cons, if_pos rfl, hsame]
      · rw [if_neg hpair, ih hrest, IndexMap.write, IndexMap.write]
        simp only [List.map_cons, List.mem_cons, Ne.symm hpair, false_or, if_neg hpair, List.cons_append]
        split <;> rfl

theorem getDict_eq (cookies : List CookieSnapshot) (domain path : Option Bytes) :
    JarSnapshot.getDict ⟨cookies⟩ domain path = (RequestsCookieJar.getDict ⟨cookies⟩ domain path).entries := by
  rw [JarSnapshot.getDict, RequestsCookieJar.getDict]
  change List.foldl _ (IndexMap.empty : IndexMap Bytes (Option Bytes)).entries cookies = _
  refine List.foldl_hom IndexMap.entries fun dictionary cookie => ?_
  rw [any_ne, any_ne]
  by_cases hcookie : (domain = none ∨ cookie.domain = domain) ∧ (path = none ∨ cookie.path = path)
  · rw [if_pos hcookie, meets_iff.mpr hcookie.1, meets_iff.mpr hcookie.2]
    exact setValue_eq_write dictionary.nodup cookie.name cookie.value
  · rw [if_neg hcookie, if_pos]
    rw [← meets_iff, ← meets_iff, ← Bool.and_eq_true, Bool.not_eq_true] at hcookie
    rw [← Bool.not_and, hcookie, Bool.not_false]

/-! ### Domains and paths -/

theorem distinct_eq (field : CookieSnapshot → Option Bytes) (cookies : List CookieSnapshot) : JarSnapshot.distinct field cookies =
    cookies.foldl (fun seen cookie => if field cookie ∉ seen then seen ++ [field cookie] else seen) [] := by
  rw [JarSnapshot.distinct]
  refine List.foldl_ext _ _ _ fun seen cookie _ => ?_
  simp

theorem multipleDomainsFrom_eq {domains : List Bytes} {seen : List (Option Bytes)}
    (hseen : ∀ domain, some domain ∈ seen ↔ domain ∈ domains) (cookies : List CookieSnapshot) :
    JarSnapshot.multipleDomainsFrom domains cookies = RequestsCookieJar.multipleDomainsFrom seen cookies := by
  induction cookies generalizing domains seen with
  | nil => rfl
  | cons cookie cookies ih =>
      rw [JarSnapshot.multipleDomainsFrom, RequestsCookieJar.multipleDomainsFrom]
      cases hdomain : cookie.domain with
      | none =>
          rw [if_neg (fun h => h.1 rfl)]
          refine ih fun domain => ?_
          simp [hseen]
      | some domain =>
          by_cases hmem : domain ∈ domains
          · simp [hmem, hseen]
          · have hnext : ∀ other, some other ∈ seen ++ [some domain] ↔ other ∈ domains ++ [domain] := by
              intro other
              simp [hseen]
            simp [hmem, hseen, ih hnext]

/-! ### What the answers are -/

/-- The dictionary has the names that match, in the order of the first match, each with the value of the last one. -/
theorem getDict_lastWrites (jar : RequestsCookieJar) (domain path : Option Bytes) :
    IndexMap.LastWrites ((jar.cookies.filter fun cookie =>
      (domain = none ∨ cookie.domain = domain) ∧ (path = none ∨ cookie.path = path)).map fun cookie => (cookie.name, cookie.value))
      (jar.snapshot.getDict domain path) := by
  have hall := IndexMap.lastWrites_insertAll ((jar.cookies.filter fun cookie =>
    (domain = none ∨ cookie.domain = domain) ∧ (path = none ∨ cookie.path = path)).map fun cookie => (cookie.name, cookie.value))
  rw [IndexMap.insertAll, List.foldl_map, List.foldl_filter] at hall
  rw [RequestsCookieJar.snapshot, getDict_eq, RequestsCookieJar.getDict]
  simpa only [decide_eq_true_eq] using hall

theorem multipleDomainsFrom_iff {seen : List Bytes} (hseen : seen.Nodup) (cookies : List CookieSnapshot) :
    JarSnapshot.multipleDomainsFrom seen cookies = true ↔ ¬(seen ++ cookies.filterMap CookieSnapshot.domain).Nodup := by
  induction cookies generalizing seen with
  | nil => simp [JarSnapshot.multipleDomainsFrom, hseen]
  | cons cookie cookies ih =>
      rw [JarSnapshot.multipleDomainsFrom]
      cases hdomain : cookie.domain with
      | none =>
          rw [List.filterMap_cons_none hdomain]
          exact ih hseen
      | some domain =>
          rw [List.filterMap_cons_some hdomain]
          by_cases hmem : domain ∈ seen
          · have htwice : ¬(seen ++ domain :: cookies.filterMap CookieSnapshot.domain).Nodup :=
              fun hnodup => List.disjoint_of_nodup_append hnodup hmem List.mem_cons_self
            simp [hmem, htwice]
          · have hnext : (seen ++ [domain]).Nodup :=
              hseen.append (List.nodup_singleton domain) (List.disjoint_singleton.mpr hmem)
            simp only [List.contains_iff_mem, hmem, if_false]
            rw [ih hnext, List.append_assoc, List.singleton_append]

theorem multipleDomains_iff (jar : JarSnapshot) :
    jar.multipleDomains = true ↔ ¬(jar.cookies.filterMap CookieSnapshot.domain).Nodup :=
  multipleDomainsFrom_iff List.nodup_nil jar.cookies

/-! ### All of them -/

theorem snapshot_answers (jar : RequestsCookieJar) :
    (∀ name domain path, jar.snapshot.findNoDuplicates ⟨name, domain, path⟩ = observed (jar.findNoDuplicates name domain path)) ∧
    (∀ domain path, jar.snapshot.getDict domain path = (jar.getDict domain path).entries) ∧
    jar.snapshot.domains = jar.listDomains ∧
    jar.snapshot.paths = jar.listPaths ∧
    jar.snapshot.multipleDomains = jar.multipleDomains :=
  ⟨fun name domain path => findNoDuplicatesFrom_eq name domain path none jar.cookies,
    fun domain path => getDict_eq jar.cookies domain path,
    distinct_eq CookieSnapshot.domain jar.cookies,
    distinct_eq CookieSnapshot.path jar.cookies,
    multipleDomainsFrom_eq (fun _ => by simp) jar.cookies⟩

end RequestsNative.Request
