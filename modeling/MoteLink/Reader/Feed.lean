import MoteLink.Act

/-! Sources of packets, as a reader uses them. A source knows whether a stop was requested, and
bounds how often it can still be opened and read. -/

namespace MoteLink

class PacketFeed (σ : Type) where
  describe : σ → String
  connect : Act σ Unit
  read : Act σ Bytes
  close : Act σ Unit
  requestStop : Act σ Unit
  stopping : σ → Bool
  remaining : σ → Nat

end MoteLink
