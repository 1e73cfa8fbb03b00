/-
Each redirect is checked after the URL was resolved, but the query is checked as a text and resolved
only afterwards.
-/

import A3Net.Construction.Relay.Proxy
import A3Net.Machine.Fallible

namespace A3Net.Relay

open Cryptography Machine List Option Char

section Spec

variable (urls : UrlLibrary) (lookup : HostPolicy.Lookup) (policy : ServerPolicy)

def HostAccepted (host : List Char) : Prop :=
  policy.hostPolicy.acceptsResolved lookup host = .ok ()

/-- The policy accepts the host, and the path lies under `/blobs/`. -/
def Confined (url : Url) : Prop :=
  ∃ host, url.host = some host ∧ HostAccepted lookup policy host ∧ blobsStart <+: url.path

/-- All requests are confined, and there are not too many. -/
def RequestsConfined (requests : List Url) : Prop :=
  requests.length ≤ policy.redirectPolicy.limit + 1 ∧ ∀ url ∈ requests, Confined lookup policy url

/-- What the URL standard reads from the query has an accepted host and a path under `/blobs/`. -/
def QueryStays (query : MeshFetchQuery) : Prop :=
  ∀ address, readAddress urls.parseHost urls.encodeSet (addressText query) = some address →
    HostAccepted lookup policy address.host ∧ blobsStart <+: address.path

end Spec

variable {urls : UrlLibrary} {lookup : HostPolicy.Lookup} {client : HttpClient}
  {policy : ServerPolicy}

theorem validatePath_start {path : List Char} (valid : validatePath path = .ok ()) :
    blobsStart <+: trim path := by
  unfold validatePath at valid
  dsimp only at valid
  split_ifs at valid with _ start
  exact isPrefixOf_iff_prefix.mp (by simpa using start)

/-- The path of a URL that a redirect leads to is checked as it is requested. -/
theorem checkRedirect_start {redirects : SafeRedirectPolicy} {cur next : Url}
    {currentHost : List Char} (checked : redirects.checkRedirect cur next currentHost = .ok ())
    (hosted : next.host.isSome) : blobsStart <+: next.path := by
  obtain ⟨_, _, valid⟩ := bind_ok_iff.mp checked
  have start := validatePath_start valid
  rcases next.rooted hosted with empty | head
  · rw [empty] at start
    exact absurd (prefix_nil.mp start) (by decide)
  · exact start.trans (trim_prefix_of_head head (by decide))

theorem send_confined {requests : List Url} {url : Url}
    (confined : url.host.isSome → Confined lookup policy url) :
    ∃ more, (send client requests url).2 = requests ++ more ∧ more.length ≤ 1 ∧
      ∀ url ∈ more, Confined lookup policy url := by
  unfold send
  split
  · exact ⟨[], by simp, by simp, forall_mem_nil _⟩
  · next host found =>
    refine ⟨[url], rfl, le_rfl, fun other member => ?_⟩
    rw [mem_singleton.mp member]
    exact confined (by rw [found]; rfl)

/-- At most as many requests are made as redirects are left, and each of them is confined. -/
theorem followRedirects_confined (upstream : List Char) (left : Nat) (response : UpstreamResponse)
    (host : List Char) (requests : List Url) :
    ∃ more, (followRedirects urls lookup client policy upstream left response host requests).2 =
        requests ++ more ∧ more.length ≤ left ∧ ∀ url ∈ more, Confined lookup policy url := by
  have sent : ∀ {base next host} (requests : List Url),
      policy.redirectPolicy.checkRedirect base next host = .ok () →
      policy.hostPolicy.acceptsResolved lookup (next.host.getD host) = .ok () →
      ∃ more, (send client requests next).2 = requests ++ more ∧ more.length ≤ 1 ∧
        ∀ url ∈ more, Confined lookup policy url := by
    intro base next host requests checked accepted
    refine @send_confined lookup client policy requests next fun hosted => ?_
    obtain ⟨name, found⟩ := isSome_iff_exists.mp hosted
    rw [found] at accepted
    exact ⟨name, found, accepted, checkRedirect_start checked hosted⟩
  fun_induction followRedirects urls lookup client policy upstream left response host requests with
  | case7 _ _ requests _ left _ _ _ next _ _ checked accepted _ later failed =>
    obtain ⟨first, grown, short, confined⟩ := sent requests checked accepted
    rw [failed] at grown
    exact ⟨first, grown, by omega, confined⟩
  | case8 _ host requests _ left _ _ _ next _ _ checked accepted answer later answered ih =>
    obtain ⟨first, grown, short, confined⟩ := sent requests checked accepted
    obtain rfl : later = requests ++ first := (congrArg Prod.snd answered).symm.trans grown
    obtain ⟨more, final, few, others⟩ := ih
    refine ⟨first ++ more, ?_, ?_, fun url member => ?_⟩
    · rw [final, append_assoc]
    · rw [length_append]
      omega
    · rcases mem_append.mp member with early | late
      · exact confined url early
      · exact others url late
  | _ => exact ⟨[], by simp, by simp, forall_mem_nil _⟩

/-- The first URL is requested when the address of the query can be read. -/
theorem proxyMeshFetch_requests {query : MeshFetchQuery}
    (valid : validateRequest lookup policy query = .ok ()) (built : client.build = .ok ()) :
    (readAddress urls.parseHost urls.encodeSet (addressText query) = none ∧
        (proxyMeshFetch urls lookup client policy query).2 = []) ∨
      ∃ address first more,
        readAddress urls.parseHost urls.encodeSet (addressText query) = some address ∧
          first.host = some address.host ∧ first.path = address.path ∧
            (proxyMeshFetch urls lookup client policy query).2 = first :: more ∧
              more.length ≤ policy.redirectPolicy.limit ∧
                ∀ url ∈ more, Confined lookup policy url := by
  have reads := urls.parse_http (addressText query)
  change Reads (urls.parse (upstreamUrl query)) _ at reads
  unfold proxyMeshFetch
  simp only [valid, built]
  cases parsed : urls.parse (upstreamUrl query) with
  | error text =>
    rw [parsed] at reads
    cases found : readAddress urls.parseHost urls.encodeSet (addressText query) with
    | none => exact .inl ⟨rfl, rfl⟩
    | some address => rw [found] at reads; exact reads.elim
  | ok url =>
    rw [parsed] at reads
    cases found : readAddress urls.parseHost urls.encodeSet (addressText query) with
    | none => rw [found] at reads; exact reads.elim
    | some address =>
      rw [found] at reads
      obtain ⟨host, _, path⟩ := reads
      have sent : send client [] url = (client.answer 0, [url]) := by
        unfold send
        rw [host]
        rfl
      simp only [sent]
      cases client.answer 0 with
      | error text =>
        exact .inr ⟨address, url, [], rfl, host, path, rfl, Nat.zero_le _, forall_mem_nil _⟩
      | ok response =>
        obtain ⟨more, requested, few, confined⟩ := @followRedirects_confined urls lookup
          client policy (upstreamUrl query) policy.redirectPolicy.limit response
          (trim query.host) [url]
        refine .inr ⟨address, url, more, rfl, host, path, ?_, few, confined⟩
        dsimp only
        split
        · next ended => rw [ended] at requested; exact requested
        · next ended => rw [ended] at requested; exact requested

def isHostChar (char : Char) : Bool :=
  isLabelChar char || char = '.' || char = ':' || char = '[' || char = ']'

theorem isAlphanum_of_hexValue {char : Char} (digit : (hexValue char).isSome) :
    char.isAlphanum := by
  unfold hexValue at digit
  have code : char.toNat = char.val.toNat := rfl
  unfold isAlphanum isAlpha isDigit isUpper isLower
  simp only [Bool.or_eq_true, Bool.and_eq_true, decide_eq_true_eq, ge_iff_le,
    UInt32.le_iff_toNat_le]
  split_ifs at digit with number lower upper
  all_goals simp at digit ⊢
  all_goals omega

variable {host : List Char}

theorem parseLiteral_characters {ip : IpAddr} (parsed : parseLiteral (trim host) = some ip) :
    ∀ char ∈ trim host, isHostChar char := by
  intro char member
  have trimmed : trim (trim host) = trim host := trimMatches_trimMatches
  rw [parseLiteral, trimmed] at parsed
  have parts := @mem_trimMatches (fun char => char = '[' || char = ']') _ _ member
  rcases parts with bracket | inside
  · unfold isHostChar
    simp only [Bool.or_eq_true, decide_eq_true_eq] at bracket ⊢
    tauto
  · have plain := IpAddr.parse_characters parsed char inside
    unfold isHostChar isLabelChar
    unfold IpAddr.isAddressChar at plain
    simp only [Bool.or_eq_true, decide_eq_true_eq] at plain ⊢
    rcases plain with (digit | dot) | colon
    · have letter := isAlphanum_of_hexValue digit
      tauto
    · tauto
    · tauto

theorem isPlausibleHostname_characters (wellFormed : isPlausibleHostname (trim host)) :
    ∀ char ∈ trim host, isHostChar char := by
  have trimmed : trim (trim host) = trim host := trimMatches_trimMatches
  unfold isPlausibleHostname at wellFormed
  simp only [trimmed] at wellFormed
  split_ifs at wellFormed with _ plainName
  · rw [plainName]
    exact all_eq_true.mp rfl
  · intro char member
    rw [← @intercalate_splitOn _ (trim host) _ _ '.'] at member
    unfold isHostChar
    rcases mem_intercalate member with dot | ⟨label, inside, there⟩
    · rw [dot]
      decide
    · have good := all_eq_true.mp wellFormed label inside
      simp only [Bool.and_eq_true] at good
      rw [all_eq_true.mp good.2 char there]
      rfl

/-- A policy that looks at hosts accepts only these characters. -/
theorem acceptsResolved_characters {policy : HostPolicy} (looks : policy ≠ .allowAllUntrusted)
    (accepted : policy.acceptsResolved lookup (trim host) = .ok ()) :
    ∀ char ∈ trim host, isHostChar char := by
  cases parsed : parseLiteral (trim host) with
  | some ip => exact parseLiteral_characters parsed
  | none =>
    cases policy with
    | allowAllUntrusted => exact absurd rfl looks
    | allowLoopbackOnly =>
      simp only [HostPolicy.acceptsResolved, HostPolicy.accepts, parsed] at accepted
      cases accepted
    | defaultBlockPrivate =>
      cases wellFormed : isPlausibleHostname (trim host) with
      | true => exact isPlausibleHostname_characters wellFormed
      | false =>
        simp only [HostPolicy.acceptsResolved, parsed, wellFormed, Bool.not_false,
          if_true] at accepted
        cases accepted

theorem isHostChar_plain {char : Char} (plain : isHostChar char) :
    endsAuthority char = false ∧ 0x20 < char.toNat := by
  have letters : char.isAlphanum → 48 ≤ char.toNat ∧ char.toNat ≤ 122 ∧
      char.toNat ≠ 63 ∧ char.toNat ≠ 92 := by
    unfold isAlphanum isAlpha isDigit isUpper isLower
    simp only [Bool.or_eq_true, Bool.and_eq_true, decide_eq_true_eq, ge_iff_le,
      UInt32.le_iff_toNat_le]
    intro letter
    have code : char.toNat = char.val.toNat := rfl
    simp at letter
    omega
  unfold isHostChar isLabelChar at plain
  simp only [Bool.or_eq_true, decide_eq_true_eq] at plain
  rcases plain with ((((letter | rfl) | rfl) | rfl) | rfl) | rfl
  · obtain ⟨least, most, question, backslash⟩ := letters letter
    have ne : ∀ other : Char, char.toNat ≠ other.toNat → char ≠ other :=
      fun _ codes same => codes (congrArg toNat same)
    have slash := ne '/' (by simp; omega)
    have back := ne '\\' (by simp; omega)
    have mark := ne '?' (by simp; omega)
    have hash := ne '#' (by simp; omega)
    simp [endsAuthority, slash, back, mark, hash]
    omega
  all_goals decide

variable {query : MeshFetchQuery}

theorem validateRequest_ok (valid : validateRequest lookup policy query = .ok ()) :
    trim query.host ≠ [] ∧ validatePath query.path = .ok () ∧
      HostAccepted lookup policy (trim query.host) := by
  revert valid
  fun_cases validateRequest lookup policy query with
  | case5 _ named _ path host => exact fun _ => ⟨(not_or.mp named).1, path, host⟩
  | _ => rintro ⟨⟩

/-- No server answers. -/
def silentClient : HttpClient := {answer := fun _ => .error []}

theorem requestsConfined_iff (valid : validateRequest lookup policy query = .ok ()) :
    (∀ client, RequestsConfined lookup policy
        (proxyMeshFetch urls lookup client policy query).2) ↔
      QueryStays urls lookup policy query := by
  constructor
  · intro confined address read
    have all := (confined silentClient).2
    rcases @proxyMeshFetch_requests urls lookup silentClient policy query valid rfl with
      ⟨missing, _⟩ | ⟨other, first, more, found, host, path, requested, _⟩
    · rw [missing] at read
      cases read
    · obtain rfl := some_inj.mp (found.symm.trans read)
      rw [requested] at all
      obtain ⟨name, named, accepted, start⟩ := all first mem_cons_self
      obtain rfl := some_inj.mp (named.symm.trans host)
      exact ⟨accepted, path ▸ start⟩
  · intro stays client
    cases built : client.build with
    | error text =>
      have nothing : (proxyMeshFetch urls lookup client policy query).2 = [] := by
        unfold proxyMeshFetch
        simp only [valid, built]
      rw [nothing]
      exact ⟨Nat.zero_le _, forall_mem_nil _⟩
    | ok _ =>
      rcases @proxyMeshFetch_requests urls lookup client policy query valid built with
        ⟨_, nothing⟩ | ⟨address, first, more, found, host, path, requested, few, confined⟩
      · rw [nothing]
        exact ⟨Nat.zero_le _, forall_mem_nil _⟩
      · obtain ⟨accepted, start⟩ := stays address found
        rw [requested]
        exact ⟨Nat.succ_le_succ few,
          forall_mem_cons.mpr ⟨⟨address.host, host, accepted, path ▸ start⟩, confined⟩⟩

/-- When the policy looks at hosts, the authority of the address is the host and the port of the
query, and its path is the path of the query. -/
theorem readAddress_query (looks : policy.hostPolicy ≠ .allowAllUntrusted)
    (valid : validateRequest lookup policy query = .ok ()) :
    readAddress urls.parseHost urls.encodeSet (addressText query) =
      (readAuthority urls.parseHost (trim query.host ++ ':' :: decimal query.port.toNat)).map
        fun (host, port) =>
          ⟨host, port, resolvePath urls.encodeSet (cleanAddress (trim query.path))⟩ := by
  obtain ⟨named, path, accepted⟩ := validateRequest_ok valid
  have head : (trim query.path).head? = some '/' := by
    obtain ⟨rest, split⟩ := validatePath_start path
    rw [← split]
    rfl
  have same : normalizeMeshPath query.path = trim query.path := if_pos head
  rw [addressText, same]
  refine readAddress_split _ _ (by simp) (fun char member => isHostChar_plain ?_) head
  rcases mem_append.mp member with inside | later
  · exact acceptsResolved_characters looks accepted char inside
  · rcases mem_cons.mp later with rfl | digit
    · decide
    · have number := Nat.isDigit_of_mem_toDigits (by decide) (by decide) digit
      simp [isHostChar, isLabelChar, isAlphanum, number]

/-- All requests of an accepted query are confined, whatever the servers answer, exactly when what
the URL standard reads from the query is. When the policy looks at hosts, that means the host as the
library parses it and the path of the query after its dot segments are resolved. -/
theorem proxy_confined_iff (urls : UrlLibrary) (lookup : HostPolicy.Lookup) (policy : ServerPolicy)
    (valid : validateRequest lookup policy query = .ok ()) :
    ((∀ client, RequestsConfined lookup policy
        (proxyMeshFetch urls lookup client policy query).2) ↔
      QueryStays urls lookup policy query) ∧
    (policy.hostPolicy ≠ .allowAllUntrusted →
      (QueryStays urls lookup policy query ↔ ∀ host port,
        readAuthority urls.parseHost (trim query.host ++ ':' :: decimal query.port.toNat) =
            some (host, port) → HostAccepted lookup policy host ∧
          blobsStart <+: resolvePath urls.encodeSet (cleanAddress (trim query.path)))) := by
  refine ⟨requestsConfined_iff valid, fun looks => ?_⟩
  have same := @readAddress_query urls lookup policy query looks valid
  unfold QueryStays
  rw [same]
  generalize resolvePath urls.encodeSet (cleanAddress (trim query.path)) = path
  constructor
  · intro stays host port read
    rw [read] at stays
    exact stays ⟨host, port, path⟩ rfl
  · intro stays address read
    obtain ⟨⟨host, port⟩, authority, rfl⟩ := map_eq_some_iff.mp read
    exact stays host port authority

/-- The segments of a resolved path have no slashes and are no dots. -/
def PlainSegment (segment : List Char) : Prop :=
  '/' ∉ segment ∧ isSingleDot segment = false ∧ isDoubleDot segment = false

theorem resolveSegments_plain {done segments : List (List Char)}
    (before : ∀ segment ∈ done, PlainSegment segment)
    (split : ∀ segment ∈ segments, '/' ∉ segment) :
    ∀ segment ∈ resolveSegments (fun _ => false) done segments, PlainSegment segment := by
  have empty : PlainSegment [] := by unfold PlainSegment; decide
  have encoded : ∀ segment, percentEncode (fun _ => false) segment = segment := by
    simp [percentEncode]
  have shorter : ∀ {done : List (List Char)}, (∀ segment ∈ done, PlainSegment segment) →
      ∀ segment ∈ done.dropLast, PlainSegment segment :=
    fun plain segment member => plain segment (dropLast_subset _ member)
  have longer : ∀ {done : List (List Char)} {last : List Char},
      (∀ segment ∈ done, PlainSegment segment) → PlainSegment last →
        ∀ segment ∈ done ++ [last], PlainSegment segment := by
    intro done last plain good
    exact forall_mem_append.mpr ⟨plain, forall_mem_singleton.mpr good⟩
  fun_induction resolveSegments (fun _ => false) done segments with
  | case1 done => exact before
  | case2 done last double => exact longer (shorter before) empty
  | case3 done last double single => exact longer before empty
  | case4 done last double single =>
    refine longer before ?_
    rw [encoded]
    exact ⟨split last mem_cons_self, by simpa using single, by simpa using double⟩
  | case5 done segment rest _ double ih =>
    exact ih (shorter before) (forall_mem_cons.mp split).2
  | case6 done segment rest _ double single ih =>
    exact ih before (forall_mem_cons.mp split).2
  | case7 done segment rest _ double single ih =>
    refine ih (longer before ?_) (forall_mem_cons.mp split).2
    rw [encoded]
    exact ⟨split segment mem_cons_self, by simpa using single, by simpa using double⟩

theorem flatMap_slash (first : List Char) (segments : List (List Char)) :
    first ++ segments.flatMap ('/' :: ·) = ['/'].intercalate (first :: segments) := by
  induction segments generalizing first with
  | nil => simp
  | cons segment rest ih =>
    rw [intercalate_cons_cons, ← ih, flatMap_cons, append_assoc]
    rfl

variable (text : List Char)

theorem resolvePath_resolved :
    ∀ segment ∈ (resolvePath (fun _ => false) text).splitOn '/',
      isSingleDot segment = false ∧ isDoubleDot segment = false := by
  obtain ⟨path, split⟩ : ∃ path : List Char, resolvePath (fun _ => false) text =
      (resolveSegments (fun _ => false) [] (path.splitOn '/')).flatMap ('/' :: ·) := ⟨_, rfl⟩
  have plain := @resolveSegments_plain [] (path.splitOn '/')
    (forall_mem_nil _) fun segment member => (mem_splitOn member).1
  have whole := flatMap_slash [] (resolveSegments (fun _ => false) [] (path.splitOn '/'))
  rw [nil_append] at whole
  rw [split, whole, splitOn_intercalate '/' ?_ (by simp)]
  · exact forall_mem_cons.mpr ⟨by decide, fun segment inside => (plain segment inside).2⟩
  · exact forall_mem_cons.mpr ⟨not_mem_nil, fun segment inside => (plain segment inside).1⟩

theorem resolvePath_rooted (encodeSet : Char → Bool) (text : List Char) :
    resolvePath encodeSet text = [] ∨ (resolvePath encodeSet text).head? = some '/' := by
  unfold resolvePath
  dsimp only
  cases resolveSegments encodeSet [] _ with
  | nil => exact .inl rfl
  | cons segment rest => exact .inr rfl

/-- The host is taken as it is, and no character is encoded. -/
def addressUrl : Except (List Char) Url :=
  match found : readAddress some (fun _ => false) text with
  | none => .error "invalid address".toList
  | some address => .ok {
      host := some address.host
      port := some address.port
      path := address.path
      rooted := fun _ => by
        obtain ⟨_, _, rfl⟩ := map_eq_some_iff.mp found
        exact resolvePath_rooted _ _
      resolved := fun _ => by
        obtain ⟨_, _, rfl⟩ := map_eq_some_iff.mp found
        exact resolvePath_resolved _ }

theorem addressUrl_reads :
    Reads (addressUrl text) (readAddress some (fun _ => false) text) := by
  unfold addressUrl
  split
  · next missing =>
    rw [missing]
    trivial
  · next address found =>
    simp only [found]
    exact ⟨rfl, rfl, rfl⟩

/-- Only addresses with the scheme are parsed. -/
def plainParse : Except (List Char) Url :=
  match stripPrefix "http://".toList text with
  | none => .error "no scheme".toList
  | some rest => addressUrl rest

def plainUrls : UrlLibrary where
  parse := plainParse
  join _ loc := plainParse loc
  parseHost := some
  encodeSet _ := false
  parse_http text := by
    have stripped : stripPrefix "http://".toList ("http://".toList ++ text) = some text := by
      simp [stripPrefix]
    rw [plainParse, stripped]
    exact addressUrl_reads text

def publicLookup : HostPolicy.Lookup := fun _ => .ok [.v4 #v[93, 184, 216, 34]]

def queryOf (path : String) : MeshFetchQuery := ⟨"example.com".toList, 80, path.toList⟩

/-- A plain path stays under `/blobs/` whatever the servers answer. -/
theorem proxy_confined_plain :
    validateRequest publicLookup {} (queryOf "/blobs/abc") = .ok () ∧
      ∀ client, RequestsConfined publicLookup {}
        (proxyMeshFetch plainUrls publicLookup client {} (queryOf "/blobs/abc")).2 := by
  have valid : validateRequest publicLookup {} (queryOf "/blobs/abc") = .ok () := by decide +kernel
  refine ⟨valid, (proxy_confined_iff plainUrls publicLookup {} valid).1.mpr ?_⟩
  intro address read
  have found : readAddress some (fun _ => false) (addressText (queryOf "/blobs/abc")) =
      some ⟨"example.com".toList, 80, "/blobs/abc".toList⟩ := by decide +kernel
  obtain rfl := some_inj.mp (found.symm.trans read)
  exact ⟨by unfold HostAccepted; decide +kernel, by decide +kernel⟩

/-- The dots are written with their codes, and the path `/admin` is requested. -/
theorem proxy_not_confined :
    ¬ ∀ (urls : UrlLibrary) (lookup : HostPolicy.Lookup) (policy : ServerPolicy)
      (query : MeshFetchQuery), validateRequest lookup policy query = .ok () →
        ∀ client, RequestsConfined lookup policy
          (proxyMeshFetch urls lookup client policy query).2 := by
  intro always
  have valid : validateRequest publicLookup {} (queryOf "/blobs/%2e%2e/admin") = .ok () := by
    decide +kernel
  have stays := (requestsConfined_iff valid).mp (always plainUrls publicLookup {} _ valid)
  have found : readAddress some (fun _ => false) (addressText (queryOf "/blobs/%2e%2e/admin")) =
      some ⟨"example.com".toList, 80, "/admin".toList⟩ := by decide +kernel
  exact absurd (stays _ found).2 (by decide +kernel)

end A3Net.Relay
