import DeviceClient.Representation
import DeviceClient.Resource

namespace DeviceClient

namespace Resource

/-- The endpoints of a link that can be read. -/
def endpointsOfLink (link : Representation) : List Endpoint :=
  ((link.getObjects? "eps").getD []).filterMap fun item =>
    (item.getText? "ep").bind fun text => (Endpoint.parse text).toOption

/-- The properties that a policy object tells: the known ones among the bits of a number of eight
bits, and none for another number. -/
def propertiesOfLink (link : Representation) : ResourceProperties :=
  match (link.getObject? "p").bind (·.getInt? "bm") with
  | some bits =>
    if 0 ≤ bits.toInt ∧ bits.toInt < 256 then .truncate (BitVec.ofNat 8 bits.toInt.toNat) else .empty
  | none => .empty

/-- The resource of a link that has a path and an endpoint. -/
def ofLink? (link : Representation) : Option Resource := do
  let uri ← link.getText? "href"
  let endpoints := endpointsOfLink link
  if endpoints.isEmpty then none
  else
    return {
      anchor := (link.getText? "anchor").getD ""
      uri := uri
      types := (link.getTexts? "rt").getD []
      interfaces := .ofProtocolNames ((link.getTexts? "if").getD [])
      properties := propertiesOfLink link
      endpoints := endpoints
    }

end Resource

namespace Payload

/-- The links at the root of a payload or one level below it. -/
def links (p : Payload) : List Representation :=
  p.roots.flatMap fun root => (root.getObjects? "links").getD [root]

/-- The resources that a discovery payload advertises. -/
def resources (p : Payload) : List Resource := p.links.filterMap Resource.ofLink?

end Payload

end DeviceClient
