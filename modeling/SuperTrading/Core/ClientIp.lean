import SuperTrading.Logic.PyText
import Mathlib.Data.Int.Notation

/-!
# The Client Behind the Proxies

`client_ip` of `app/core/rate_limit.py`: the address a request is counted under, read from the
`X-Forwarded-For` header that the trusted proxies append to.

- **client_ip**: the entry that many places from the right
- **Proxies**: what a header is after it went through them
- **Identity**: the address the first proxy saw, whatever the client sent
-/

namespace SuperTrading

open Logic

/-! ## Section 1: client_ip -/

/-- The entries of the header that are not empty. -/
def forwardedChain (forwardedFor : String) : List String :=
  ((split ',' forwardedFor).map strip).filter fun part => part ≠ ""

/-- `client_ip`. `host` is the socket peer, and `forwardedFor` the header, if there is one. -/
def clientIp (host forwardedFor : Option String) (trustedProxyHops : ℤ) : String :=
  let peer := host.getD "unknown"
  if trustedProxyHops ≤ 0 then peer
  else
    let chain := forwardedChain (forwardedFor.getD "")
    if (chain.length : ℤ) < trustedProxyHops then peer
    -- `chain[-trusted_proxy_hops]`.
    else chain.getD (chain.length - trustedProxyHops.toNat) ""

/-- The key that `rate_limit` counts a request under. -/
def rateLimitKey (keyPrefix : String) (host forwardedFor : Option String)
    (trustedProxyHops : ℤ) : String :=
  s!"{keyPrefix}:{clientIp host forwardedFor trustedProxyHops}"

/-! ## Section 2: Proxies -/

/-- The address of a peer: a text without commas and blanks. -/
structure PeerAddress where
  text : String
  nonempty : text ≠ ""
  no_comma : ',' ∉ text.toList
  no_space : ∀ c ∈ text.toList, isSpace c = false

/-- What a proxy appends: the address it saw, after a comma and blanks. -/
structure ProxyHop where
  seen : PeerAddress
  blanks : String := " "
  blank : ∀ c ∈ blanks.toList, isSpace c = true := by decide

namespace ProxyHop

/-- The header behind a proxy. -/
def forward (forwardedFor : Option String) (hop : ProxyHop) : Option String :=
  match forwardedFor with
  | none => some hop.seen.text
  | some text => some (text ++ String.singleton ',' ++ (hop.blanks ++ hop.seen.text))

/-- The header behind all of them, the one that faces the client first. -/
def through (forwardedFor : Option String) (hops : List ProxyHop) : Option String :=
  hops.foldl forward forwardedFor

end ProxyHop

/-! ## Section 3: Identity -/

theorem forwardedChain_append (text rest : String) :
    forwardedChain (text ++ String.singleton ',' ++ rest) =
      forwardedChain text ++ forwardedChain rest := by
  simp only [forwardedChain, split_append, List.map_append, List.filter_append]

/-- An address is one entry, with blanks in front of it or without. -/
theorem forwardedChain_address {blanks : String} (hblank : ∀ c ∈ blanks.toList, isSpace c = true)
    (address : PeerAddress) : forwardedChain (blanks ++ address.text) = [address.text] := by
  have hcomma : ',' ∉ (blanks ++ address.text).toList := by
    rw [String.toList_append, List.mem_append]
    rintro (h | h)
    · exact absurd (hblank ',' h) (by decide)
    · exact address.no_comma h
  have hstrip : strip (blanks ++ address.text) = address.text := by
    rw [strip_append_of_pad hblank, strip_of_clean address.no_space]
  simp [forwardedChain, split_of_not_mem hcomma, hstrip, address.nonempty]

/-- Every proxy adds its entry on the right. -/
theorem forwardedChain_forward (forwardedFor : Option String) (hop : ProxyHop) :
    forwardedChain ((hop.forward forwardedFor).getD "") =
      forwardedChain (forwardedFor.getD "") ++ [hop.seen.text] := by
  cases forwardedFor with
  | none =>
    have hempty : ∀ c ∈ "".toList, isSpace c = true := by simp
    have haddress := forwardedChain_address hempty hop.seen
    rw [String.empty_append] at haddress
    exact haddress
  | some text =>
    show forwardedChain (text ++ String.singleton ',' ++ (hop.blanks ++ hop.seen.text)) = _
    rw [forwardedChain_append, forwardedChain_address hop.blank]
    rfl

theorem forwardedChain_through (forwardedFor : Option String) (hops : List ProxyHop) :
    forwardedChain ((ProxyHop.through forwardedFor hops).getD "") =
      forwardedChain (forwardedFor.getD "") ++ hops.map fun hop => hop.seen.text := by
  induction hops generalizing forwardedFor with
  | nil => exact (List.append_nil _).symm
  | cons hop hops ih =>
    have hrest := ih (hop.forward forwardedFor)
    rw [forwardedChain_forward, List.append_assoc] at hrest
    exact hrest

/-- The entry as many places from the right as there are proxies. -/
theorem clientIp_through (host forwardedFor : Option String) (first : ProxyHop)
    (inner : List ProxyHop) :
    clientIp host (ProxyHop.through forwardedFor (first :: inner)) (inner.length + 1) =
      first.seen.text := by
  have hpos : ¬ (inner.length + 1 : ℤ) ≤ 0 := by omega
  rw [clientIp, if_neg hpos, forwardedChain_through, List.map_cons]
  -- Whatever the client sent is on the left of the proxies' own entries.
  generalize forwardedChain (forwardedFor.getD "") = sent
  simp only [List.length_append, List.length_cons, List.length_map]
  rw [if_neg (by omega)]
  have hindex : sent.length + (inner.length + 1) - (inner.length + 1 : ℤ).toNat = sent.length := by
    omega
  rw [hindex, List.getD_eq_getElem?_getD, List.getElem?_append_right (le_refl _), Nat.sub_self]
  rfl

/-- **The rate-limit identity cannot be forged.** Behind as many proxies as are trusted, a request
is counted under the address that the first of them saw, and what the client sent in the header
does not change its key. -/
theorem rateLimitKey_through (keyPrefix : String) (host : Option String) (first : ProxyHop)
    (inner : List ProxyHop) (sent sent' : Option String) :
    let hops := first :: inner
    clientIp host (ProxyHop.through sent hops) hops.length = first.seen.text ∧
      rateLimitKey keyPrefix host (ProxyHop.through sent hops) hops.length =
        rateLimitKey keyPrefix host (ProxyHop.through sent' hops) hops.length := by
  intro hops
  have hlength : (hops.length : ℤ) = inner.length + 1 := by simp [hops]
  rw [rateLimitKey, rateLimitKey, hlength, clientIp_through, clientIp_through]
  exact ⟨rfl, rfl⟩

/-- A forged entry is passed over. -/
example : clientIp (some "172.18.0.2") (some "10.0.0.1, 203.0.113.7") 1 = "203.0.113.7" := by
  decide +kernel

end SuperTrading
