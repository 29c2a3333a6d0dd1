import Xmrig.Base.Job

/-! Coins, as far as template parsing and the daemon client tell them apart. -/

set_option autoImplicit false

namespace Xmrig

/-- `Coin::Id`, in the order of the source. -/
inductive Coin where
  | invalid
  | monero
  | sumo
  | arqma
  | graft
  | raven
  | wownero
  | zephyr
  | townforge
  | yada
  deriving DecidableEq, Repr

/-- The first column of `coinInfo`. -/
def Coin.algorithm : Coin → Algorithm
  | invalid => .invalid
  | monero => .rx0
  | sumo => .cnR
  | arqma => .rxArq
  | graft => .rxGraft
  | raven => .kawpowRvn
  | wownero => .rxWow
  | zephyr => .rx0
  | townforge => .rx0
  | yada => .rxYada

def Coin.isValid (coin : Coin) : Bool := coin ≠ .invalid

end Xmrig
