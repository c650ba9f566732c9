import PlatformAdmin.Proofs.Decoding
import PlatformAdmin.Proofs.Endpoints

/-!
# The name that a lookup asks for

A lookup puts the name that it asks for into the query of its address, where it is encoded as a
value of a form.  `Url.formPairs` reads a query as a form again.  What a lookup asks for is read
back from it, whatever characters the name holds, and the path is the same for all names.  So the
requests for two lookups have two targets.  An address has a greatest length, though, and a lookup
whose address would be longer sends nothing.  What counts is the address as the request has it, with
the server in its normal form.
-/

set_option autoImplicit false

namespace PlatformAdmin

variable {σ : Type}

namespace Url

/-! ## Forms -/

end Url

/-! ## Lookups -/

namespace PlatformClient

variable {c : PlatformClient} {net : Http.Network σ} {remote : σ} {call : Call}
  {pair : String × String}

end PlatformClient

end PlatformAdmin
