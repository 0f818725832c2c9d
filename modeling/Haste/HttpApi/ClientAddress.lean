import Haste.Go.Header
import Haste.HttpApi.RateLimit

/-!
# The address a client is throttled by

Behind a trusted proxy the caller is taken to be the left-most entry of
`X-Forwarded-For`.  A proxy that appends the address of its peer leaves what the
client has written in front of it, so the left-most entry is the peer's address
only when the client sends no such header, and whatever the client likes
otherwise.
-/

namespace Haste
namespace HttpApi

open Go
open Foundation

/-- `net.SplitHostPort`, which fails on anything but one port after a host that
is in brackets or has no colon. -/
def splitHostPort (hostport : Bytes) : Option (Bytes × Bytes) :=
  let port := hostport.rtakeWhile (· != 0x3A)
  let host := hostport.take (hostport.length - 1 - port.length)
  if 0x3A ∉ hostport then none
  else match hostport with
    | 0x5B :: rest =>
        let inner := before 0x5D rest
        if 0x5D ∉ rest ∨ host ≠ 0x5B :: inner ++ [0x5D] ∨ 0x5B ∈ rest ∨
            0x5D ∈ port then none
        else some (inner, port)
    | _ =>
        if 0x3A ∈ host ∨ 0x5B ∈ hostport ∨ 0x5D ∈ hostport then none
        else some (host, port)

example : splitHostPort (ascii "203.0.113.9:4711") =
    some (ascii "203.0.113.9", ascii "4711") := by decide +kernel

example : splitHostPort (ascii "[2001:db8::1]:4711") =
    some (ascii "2001:db8::1", ascii "4711") := by decide +kernel

/-- `clientIP`. -/
def clientIP (header : Header) (remoteAddr : Bytes) (trustProxy : Bool) : Bytes :=
  let forwarded := header.get "X-Forwarded-For"
  let real := trimSpace (header.get "X-Real-IP")
  if trustProxy ∧ forwarded ≠ [] then trimSpace (before 0x2C forwarded)
  else if trustProxy ∧ real ≠ [] then real
  else match splitHostPort remoteAddr with
    | some (host, _) => host
    | none => remoteAddr

/-- What a proxy forwards of the header a client sends: the address of its peer
comes after the values of `X-Forwarded-For` the client sends, if any, and every
other field is passed on. -/
def throughProxy (peer : Bytes) (sent : Header) : Header :=
  sent.set "X-Forwarded-For"
    ((ascii ", ").intercalate (sent.values "X-Forwarded-For" ++ [peer]))

/-- The first value a client sends as `X-Forwarded-For`, or its address if it
sends none. -/
def firstForwarded (peer : Bytes) (sent : Header) : Bytes :=
  (sent.values "X-Forwarded-For").headD peer

/-- The first comma-separated element of a value. -/
def firstElement (value : Bytes) : Bytes := trimSpace (before 0x2C value)

/-- What follows a separator is not before it. -/
theorem before_append (separator : UInt8) (front rest : Bytes) :
    before separator (front ++ separator :: rest) = before separator front := by
  induction front with
  | nil => simp [before]
  | cons first front inductionHypothesis =>
      unfold before at inductionHypothesis ⊢
      rw [List.cons_append, List.takeWhile_cons, List.takeWhile_cons,
        inductionHypothesis]

/-- The first element of a joined list is that of its first value. -/
theorem before_intercalate (first : Bytes) (rest : List Bytes) :
    before 0x2C ((ascii ", ").intercalate (first :: rest)) =
      before 0x2C first := by
  cases rest with
  | nil => simp
  | cons second rest =>
      rw [List.intercalate_cons_cons]
      have separated : first ++ ascii ", " ++
          (ascii ", ").intercalate (second :: rest) =
            first ++ 0x2C :: (0x20 :: (ascii ", ").intercalate (second :: rest)) := by
        rw [List.append_assoc]
        rfl
      rw [separated, before_append]

/-- Behind a proxy that appends its peer, the key is the first element of what
the client sends. -/
theorem clientIP_throughProxy
    {peer : Bytes}
    (isAddress : peer ≠ [])
    (sent : Header)
    (remoteAddr : Bytes) :
    clientIP (throughProxy peer sent) remoteAddr true =
      firstElement (firstForwarded peer sent) := by
  have forwarded : (throughProxy peer sent).get "X-Forwarded-For" =
      (ascii ", ").intercalate (sent.values "X-Forwarded-For" ++ [peer]) := by
    simp [throughProxy, Header.get]
  unfold clientIP firstElement firstForwarded
  rw [forwarded]
  cases values : sent.values "X-Forwarded-For" with
  | nil => simp [isAddress]
  | cons first rest =>
      have present : (ascii ", ").intercalate (first :: (rest ++ [peer])) ≠ [] := by
        cases rest <;> simp [List.intercalate_cons_cons, ascii]
      rw [List.cons_append, if_pos ⟨rfl, present⟩, before_intercalate]
      rfl

/-- The call of the limiter for what a peer sends at an instant. -/
def callThroughProxy
    (peer remoteAddr : Bytes)
    (request : Header × Int) : Call where
  ip := clientIP (throughProxy peer request.1) remoteAddr true
  now := request.2

/-- **The key of the rate limiter.**  Of two requests of one peer the proxy makes
the same key if and only if what the client sends starts with the same element;
and requests that all start with the same element are answered as the calls of
one bucket. -/
theorem one_key_iff
    {peer : Bytes}
    (isAddress : peer ≠ [])
    (remoteAddr : Bytes) :
    (∀ left right : Header,
      clientIP (throughProxy peer left) remoteAddr true =
          clientIP (throughProxy peer right) remoteAddr true ↔
        firstElement (firstForwarded peer left) =
          firstElement (firstForwarded peer right)) ∧
    ∀ (limiter : Option IPLimiter) (requests : List (Header × Int))
      (element : Bytes),
      (∀ request ∈ requests,
        firstElement (firstForwarded peer request.1) = element) →
      Runs.answers allow limiter
          (requests.map (callThroughProxy peer remoteAddr)) =
        Runs.answers allow limiter
          (requests.map fun request => ⟨element, request.2⟩) := by
  constructor
  · intro left right
    rw [clientIP_throughProxy isAddress, clientIP_throughProxy isAddress]
  · intro limiter requests element same
    congr 1
    apply List.map_congr_left
    intro request listed
    rw [callThroughProxy, clientIP_throughProxy isAddress, same request listed]

/-- A client that sends this as `X-Forwarded-For`. -/
def claiming (address : String) : Header :=
  Header.empty.set "X-Forwarded-For" (ascii address)

/-- A client that sends no address, or its own, is throttled by its own. -/
theorem one_key_iff_honest :
    clientIP (throughProxy (ascii "203.0.113.9") Header.empty)
        (ascii "10.0.0.2:80") true =
      clientIP (throughProxy (ascii "203.0.113.9") (claiming " 203.0.113.9 , x"))
        (ascii "10.0.0.2:80") true :=
  ((one_key_iff (by decide) (ascii "10.0.0.2:80")).1 _ _).mpr
    (by decide +kernel)

/-- With a burst of one, a client that makes up two addresses is admitted twice
at once, where one bucket admits it once. -/
theorem made_up_addresses_admitted :
    clientIP (throughProxy (ascii "203.0.113.9") (claiming "1.1.1.1"))
        (ascii "10.0.0.2:80") true ≠
      clientIP (throughProxy (ascii "203.0.113.9") (claiming "2.2.2.2"))
        (ascii "10.0.0.2:80") true ∧
    Runs.answers allow (newIPLimiter 1 1)
      ([(claiming "1.1.1.1", 0), (claiming "2.2.2.2", 0)].map
        (callThroughProxy (ascii "203.0.113.9") (ascii "10.0.0.2:80"))) =
      [true, true] ∧
    Runs.answers allow (newIPLimiter 1 1)
      [⟨ascii "203.0.113.9", 0⟩, ⟨ascii "203.0.113.9", 0⟩] = [true, false] := by
  refine ⟨by decide +kernel, by decide +kernel, by decide +kernel⟩

end HttpApi
end Haste
