import DataAccess.Sqlite.Connection

/-! Engines as storages know them. -/
namespace DataAccess.Sqlite

/-- Where a storage is, and what the engine there does: it opens connections and carries out what is
asked by way of one. -/
structure Site where
  descriptor : Descriptor
  connect : Action Engine Connection
  control : (Failure → Failure) → Control → Action Link Unit
  execute : Command → Action Link Affected
  query : {β : Type} → Command → Receiver β → β → Effect Link (β × Outcome Unit)

namespace Site

/-- The engine of databases in memory. -/
def of (d : Descriptor) : Site :=
  ⟨d, Connection.connect d, Link.control, Link.execute, Link.query⟩

def identity (s : Site) : String := s.descriptor.identity

end Site

end DataAccess.Sqlite
