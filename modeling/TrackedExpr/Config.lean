/-!
# What a binding tracks

**Definitions.**
* `BindingConfig`: which accesses are tracked and how instrumentation is checked;
* `BindingConfig.untracked`, `BindingConfig.tracksAnything`.
-/

namespace TrackedExpr

/-- What a binding tracks, and how strictly its instrumentation is checked. -/
structure BindingConfig where
  monitorAttributes : Bool := true
  /-- track attributes that are looked up with `getattr` -/
  monitorGetattr : Bool := true
  /-- drop proposals that are not stack-neutral and check the result -/
  verifyStack : Bool := true
  /-- run the code as given, untracked, when it cannot be instrumented -/
  fallbackUninstrumented : Bool := true
deriving DecidableEq, Repr

namespace BindingConfig

def untracked : BindingConfig := { monitorAttributes := false, monitorGetattr := false }

def tracksAnything (c : BindingConfig) : Bool := c.monitorAttributes || c.monitorGetattr

end BindingConfig
end TrackedExpr
