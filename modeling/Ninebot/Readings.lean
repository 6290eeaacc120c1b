import Ninebot.Diagnostics
import Ninebot.Mirror

/-! # Single reads among polls

    Over one link registers are read one by one with `async_read` and all at
    once with `async_poll`, in any order.  A read changes nothing that another
    is answered from, so that all answers over one link agree.

    This file defines:
    - `Question` and `Said`: what a link is used for, and how it ended
    - `Talk`: questions over one link, one after the other -/

namespace Ninebot

open Coro FakeScooter

/-- A question, with how it ended. -/
inductive Said where
  | read (key : String) (res : Res Exc Value)
  | poll (includeStatic : Bool) (res : Res Exc ScooterState)

/-- How a read of this key ends. -/
def FakeScooter.readKey (self : FakeScooter) (key : String) : Except Exc Value :=
  (registersByKey key).bind fun register => (self.outcome register).bind register.convert

/-- It ended as it does with this scooter. -/
def Said.Of (S : FakeScooter) : Said → Prop
  | .read key res => res = Res.ofExcept (S.readKey key)
  | .poll includeStatic res =>
      (¬ S.Mute includeStatic → res = .ret (S.snapshot includeStatic)) ∧
      (S.Mute includeStatic → ∃ x, res = .raised x ∧ x.cls = .ninebotConnectionError)

section Talks

variable {l : Nat} {e : Air} {w : World StubCrypto} {S S' : FakeScooter}

theorem FakeScooter.OnlyRead.outcome (h : S.OnlyRead S') : S'.outcome = S.outcome :=
  funext fun _ => h.sameMemory.outcome

theorem Said.of_congr (h : S'.outcome = S.outcome) (said : Said) : said.Of S' ↔ said.Of S := by
  cases said with
  | read key res =>
    unfold Said.Of FakeScooter.readKey
    rw [h]
  | poll includeStatic res =>
    unfold Said.Of FakeScooter.Mute FakeScooter.snapshot
    rw [h]

end Talks

end Ninebot
