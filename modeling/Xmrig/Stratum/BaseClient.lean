import Xmrig.Base.Job

/-! What the clients share. -/

set_option autoImplicit false

namespace Xmrig

/-- `BaseClient::SocketState`. -/
inductive SocketState where
  | unconnected
  | hostLookup
  | connecting
  | connected
  | closing
  | reconnecting
  deriving DecidableEq, Repr

end Xmrig
