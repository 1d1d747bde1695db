import ClipFerry.Foundation.Transition

namespace ClipFerry.Foundation

open Transition

/-! A queue whose reader looks only when called: who adds an item owes a call, or lets it lapse. -/

structure Mailbox (α : Type) where
  sent : List α
  taken : List α
  waiting : List α
  calls : Nat
  owed : Nat
  lapsed : Nat
  reading : Bool
  closed : Bool

namespace Mailbox

variable {α σ τ β : Type} {box box' : Mailbox α}

inductive Step : Mailbox α → Mailbox α → Prop
  | idle {box : Mailbox α} : Step box box
  | send {box : Mailbox α} (a : α) : Step box { box with
      sent := box.sent ++ [a]
      waiting := box.waiting ++ [a]
      owed := box.owed + 1 }
  | call {box : Mailbox α} {n : Nat} (howed : box.owed = n + 1) :
      Step box { box with owed := n, calls := box.calls + 1 }
  | lapse {box : Mailbox α} {n : Nat} (howed : box.owed = n + 1) :
      Step box { box with owed := n, lapsed := box.lapsed + 1 }
  | answer {box : Mailbox α} {n : Nat} (hcalls : box.calls = n + 1) :
      Step box { box with calls := n, reading := true }
  | take {box : Mailbox α} {a : α} {later : List α} (hreading : box.reading = true)
      (hwaiting : box.waiting = a :: later) :
      Step box { box with taken := box.taken ++ [a], waiting := later }
  | rest {box : Mailbox α} (hwaiting : box.waiting = []) :
      Step box { box with reading := false, lapsed := 0 }
  | close {box : Mailbox α} : Step box { box with reading := false, closed := true }

def Ordered (box : Mailbox α) : Prop := box.sent = box.taken ++ box.waiting

end Mailbox

end ClipFerry.Foundation
