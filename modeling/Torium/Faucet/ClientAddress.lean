import Torium.Faucet.Go
import Torium.Lib.Netip

/-!
# The client address of a request

A request comes from a peer. If the peer is a trusted proxy, the client is the last entry of the
header in which proxies list the addresses they have seen.

The header may be repeated, and then stands for its values joined by commas. The service looks
only at the first of them, so a request is read as its header says if the last entry of the first
value is the last entry of all of them.
-/

namespace Torium.Faucet

open Netip

/-- Functions of the standard library on texts. An address with a port is given by the address. -/
class NetText where
  parseAddr : GoString → Except GoString Addr
  parseAddrPort : GoString → Except GoString Addr
  addrText : Addr → GoString
  trimSpace : GoString → GoString

/-- A request, with the values of each header in their order. -/
structure HttpRequest where
  remoteAddr : GoString
  header : GoString → List GoString

def HttpRequest.get (request : HttpRequest) (name : GoString) : GoString :=
  (request.header name).headD []

def xForwardedFor : GoString := text "X-Forwarded-For"

def comma : UInt8 := 44

/-- The single value that a repeated header stands for. -/
def HttpRequest.combined (request : HttpRequest) : GoString :=
  [comma].intercalate (request.header xForwardedFor)

section ClientAddress

variable [NetText] (trustedProxies : List Prefix)

open NetText

/-- The address that a request comes from. -/
def HttpRequest.peer (request : HttpRequest) : Except GoString Addr :=
  (parseAddrPort request.remoteAddr).map Addr.unmap

def isTrusted (peer : Addr) : Bool := trustedProxies.any fun range => range.contains peer

/-- The last entry of a list with commas, without the blanks around it. -/
def lastEntry (header : GoString) : GoString :=
  trimSpace ((header.splitOn comma).getLastD [])

/-- What an entry of a trusted proxy is read as. -/
def forwardedAddress (peer : Addr) (last : GoString) : Except GoString Addr :=
  if last = [] then
    throw (text "trusted proxy " ++ addrText peer ++ text " sent no X-Forwarded-For entry")
  else
    match parseAddr last with
    | .ok address => pure address.unmap
    | .error _ =>
      match parseAddrPort last with
      | .ok forwarded => pure forwarded.unmap
      | .error _ => throw (text "trusted proxy " ++ addrText peer ++
          text " sent an unparseable client address")

def clientAddress (request : HttpRequest) : Except GoString Addr := do
  let peer ← request.peer
  if isTrusted trustedProxies peer then
    forwardedAddress peer (lastEntry (request.get xForwardedFor))
  else pure peer

/-- The last entry of the first value is the last entry of all values. -/
def HttpRequest.Consistent (request : HttpRequest) : Prop :=
  lastEntry (request.get xForwardedFor) = lastEntry request.combined

variable {trustedProxies} {request other : HttpRequest} {peer : Addr}

theorem clientAddress_of_trusted (from_ : request.peer = .ok peer)
    (trusted : isTrusted trustedProxies peer = true) :
    clientAddress trustedProxies request =
      forwardedAddress peer (lastEntry (request.get xForwardedFor)) := by
  rw [clientAddress, from_]
  exact if_pos trusted

theorem clientAddress_of_untrusted (from_ : request.peer = .ok peer)
    (untrusted : isTrusted trustedProxies peer = false) :
    clientAddress trustedProxies request = .ok peer := by
  rw [clientAddress, from_]
  exact if_neg (Bool.eq_false_iff.mp untrusted)

omit trustedProxies in
/-- A header that is not repeated is read as it says. -/
theorem HttpRequest.consistent_of_length (single : (request.header xForwardedFor).length ≤ 1) :
    request.Consistent := by
  rw [Consistent, get, combined]
  match request.header xForwardedFor, single with
  | [], _ => rfl
  | [value], _ => simp

end ClientAddress

namespace Demo

/-- The addresses that the requests below name, for texts with a port and without. -/
def addresses : List (GoString × Addr) :=
  [(text "10.0.0.1", .v4 0x0a000001), (text "1.2.3.4", .v4 0x01020304),
    (text "5.6.7.8", .v4 0x05060708)]

@[reducible] def netText : NetText where
  parseAddr entry := ((addresses.lookup entry).elim (throw (text "unable to parse IP")) pure)
  parseAddrPort entry :=
    ((addresses.find? fun known => known.1 ++ text ":443" == entry).map Prod.snd).elim
      (throw (text "not an ip:port")) pure
  addrText address :=
    ((addresses.find? fun known => known.2 == address).map Prod.fst).getD []
  trimSpace entry := ((entry.dropWhile (· == 32)).reverse.dropWhile (· == 32)).reverse

def request (values : List GoString) : HttpRequest where
  remoteAddr := text "10.0.0.1:443"
  header name := if name = xForwardedFor then values else []

def proxies : List Prefix := [.from (.v4 0x0a000000) 8]

end Demo

end Torium.Faucet
