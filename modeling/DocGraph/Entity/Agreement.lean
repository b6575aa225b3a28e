import DocGraph.Entity.Basic
import DocGraph.Value.Agreement
/-!
# Agreement of entities
-/

namespace DocGraph.Entity

def agrees (a b : Entity) : Bool :=
  a.record.agrees b.record && a.identity == b.identity && a.source == b.source
    && a.target == b.target && a.state == b.state

end DocGraph.Entity
