import CatalogBrowser.Backend.Call

/-!
Talking to a peer whose answers are known beforehand.

The answers are given out one after another.  A request that finds none left does not reach the
peer at all.
-/

namespace CatalogBrowser

structure Exchange where
  answers : List PeerAnswer := []
  requests : List Request := []

namespace Exchange

def perform (exchange : Exchange) (call : Call α) : Exchange × Except Error α :=
  match exchange.answers with
  | [] => (exchange, call.read .unreachable)
  | answer :: rest =>
    ({ answers := rest, requests := exchange.requests ++ [call.request] }, call.read answer)

end Exchange

end CatalogBrowser
