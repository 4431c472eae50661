import DeadDrop.Courier.Basic
import DeadDrop.Http.Api

/-!
A carrier that walks straight to a server: the request reaches it as it was sent, and nothing is
lost on the way back.
-/

namespace DeadDrop.Courier

variable {State Seed : Type}

def Errand.request (errand : Errand) : Http.Request :=
  ⟨errand.method, errand.url.path.write,
    if errand.body.isSome then [("content-type", "application/json")] else [],
    errand.body.getD []⟩

def direct (api : Http.Api State Seed) : Carrier (Service.World State Seed) :=
  fun errand world =>
    let (response, world) := api.handle errand.request world
    (.ok ⟨response.status, Text.Utf8.bytes response.body⟩, world)

end DeadDrop.Courier
