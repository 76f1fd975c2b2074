import ScriptPool.Bench.Basic
import ScriptPool.Outline.Pool

namespace ScriptPool

def Registration.outline (r : Registration) : Outline :=
  .record "Registration"
    [("context", (Engine.contextIdentity r.context).outline), ("tracked", .boolean r.tracked)]

end ScriptPool
