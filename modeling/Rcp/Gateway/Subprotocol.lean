/-
The bearer token of a WebSocket, through the gateway and past it.

A client names the subprotocols `bearer` and its token.  The gateway splits and strips the header
(`gateway/app/ws_proxy.py`), accepts the client and offers the same list to the upstream, where
`Handler` of `internal/ws/handler.go` splits and trims once more.  The upstream is called at
`/ws` without a query and without the headers of the client.  Headers are ASCII, so both sides
read the same characters.
-/
import Rcp.Common.Split

namespace Rcp
namespace Gateway
namespace Subprotocol

/-! ## The two readers -/

/-- `[value.strip() for value in header.split(",") if value.strip()]`. -/
def subprotocols (header : String) : List String :=
  ((header.toList.splitOn ',').map fun value => strip (String.ofList value)).filter (· ≠ "")

/-- `unicode.IsSpace`. -/
def goSpace (c : Char) : Bool :=
  let n := c.toNat
  (9 ≤ n && n ≤ 13) || n == 32 || n == 0x85 || n == 0xa0 || n == 0x1680 ||
    (0x2000 ≤ n && n ≤ 0x200a) || n == 0x2028 || n == 0x2029 || n == 0x202f || n == 0x205f ||
    n == 0x3000

/-- `strings.TrimSpace`. -/
def trimSpace (cs : List Char) : String := String.ofList (trim goSpace cs)

/-- `tokenFromSubprotocol`. -/
def tokenFromSubprotocol (header : String) : String :=
  match header.toList.splitOn ',' with
  | first :: second :: _ => if trimSpace first = "bearer" then trimSpace second else ""
  | _ => ""

/-- What `Handler` reads of a request.  A header or a parameter that is not there is empty. -/
structure Upgrade where
  protocol : String := ""
  token : String := ""
  accessToken : String := ""
  authorization : String := ""

/-- The token of an `Authorization` header. -/
def tokenFromAuthorization (header : String) : String :=
  if (header.toList.take 7).map Char.toLower = "bearer ".toList then
    trimSpace (header.toList.drop 7)
  else ""

/-- The token that `Handler` takes: the first of the places that has one. -/
def Upgrade.bearer (request : Upgrade) : String :=
  if tokenFromSubprotocol request.protocol ≠ "" then tokenFromSubprotocol request.protocol
  else if request.token ≠ "" then request.token
  else if request.accessToken ≠ "" then request.accessToken
  else tokenFromAuthorization request.authorization

/-- The answer to an upgrade. -/
inductive Answer (Claims : Type)
  | missingToken
  | invalidToken
  /-- The client, with the subprotocol of the response. -/
  | upgraded (claims : Claims) (subprotocol : Option String)

/-- `Handler`. -/
def handler {Claims : Type} (verify : String → Option Claims) (request : Upgrade) :
    Answer Claims :=
  if request.bearer = "" then .missingToken
  else
    match verify request.bearer with
    | none => .invalidToken
    | some claims =>
        .upgraded claims (if request.protocol ≠ "" then some "bearer" else none)

/-! ## The gateway between them -/

/-- The subprotocol with which the gateway accepts the client. -/
def accepted (request : Upgrade) : Option String := (subprotocols request.protocol).head?

/-- The request of `websockets.connect`, unless it refuses to make one. -/
def upstreamRequest (offer : List String → Option String) (request : Upgrade) : Option Upgrade :=
  (offer (subprotocols request.protocol)).map fun header => { protocol := header }

/-- The claims of the connection that the gateway makes for the client, if it makes one.  The
subprotocol of the answer must be one of those offered. -/
def connect {Claims : Type} (verify : String → Option Claims)
    (offer : List String → Option String) (request : Upgrade) : Option Claims :=
  match (upstreamRequest offer request).map (handler verify) with
  | some (.upgraded claims (some subprotocol)) =>
      if subprotocol ∈ subprotocols request.protocol then some claims else none
  | some (.upgraded claims none) => some claims
  | _ => none

/-- `websockets` joins the list. -/
def joined (l : List String) : Option String := some (", ".intercalate l)

section Gateway

variable {Claims : Type} (verify : String → Option Claims) {offer : List String → Option String}
  (request : Upgrade)

end Gateway

/-! ## The list that is joined -/

end Subprotocol
end Gateway
end Rcp
