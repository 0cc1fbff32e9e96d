import StepFi.Host

/-! The SEP-41 token the contracts settle in: balances, and the log of the
`transfer` events the token emits. A transfer moves exactly the amount asked or
fails, and needs the payer's authorisation (`Env.Covers`). -/
namespace StepFi

open Lib

structure Transfer where
  source : Address
  target : Address
  amount : Int
  deriving DecidableEq, Repr

structure Token where
  balance : Address → Int
  log : List Transfer

namespace Token

/-- The ledger after `amount` moved; a transfer to oneself changes nothing. -/
def move (t : Token) (source target : Address) (amount : Int) : Token :=
  let debited := Function.update t.balance source (t.balance source - amount)
  { balance := Function.update debited target (debited target + amount)
    log := t.log ++ [⟨source, target, amount⟩] }

def transfer (t : Token) (source target : Address) (amount : Int) : Except Failure Token := do
  ensure (0 ≤ amount ∧ amount ≤ t.balance source) .token
  return t.move source target amount

/-- New units from the token's issuer. -/
def mint (t : Token) (target : Address) (amount : Int) : Except Failure Token := do
  ensure (0 ≤ amount) .token
  return { t with balance := Function.update t.balance target (t.balance target + amount) }

/-- `token::Client::transfer` on the contract at `token`, called by `caller`. -/
def transferAt (d : Deployment) (env : Env) (caller token source target : Address)
    (amount : Int) (t : Token) : Except Failure Token := do
  ensure (token = d.token) (.noContract token)
  ensure (env.Covers caller ⟨token, source, target, amount⟩) (.unauthorized source)
  t.transfer source target amount

@[simp] theorem move_log (t : Token) (source target : Address) (amount : Int) :
    (t.move source target amount).log = t.log ++ [⟨source, target, amount⟩] := rfl

/-- What left the account `a`. -/
def outflows (t : Token) (a : Address) : List Transfer := t.log.filter (·.source = a)

theorem outflows_move (t : Token) (source target a : Address) (amount : Int) :
    (t.move source target amount).outflows a
      = t.outflows a ++ if source = a then [⟨source, target, amount⟩] else [] := by
  simp only [outflows, move_log, List.filter_append, List.filter_singleton]
  by_cases h : source = a <;> simp [h]

/-- Transfers of others leave an account's outflows alone. -/
theorem outflows_append {t t' : Token} {a : Address} {new : List Transfer}
    (h : t'.log = t.log ++ new) (hne : ∀ x ∈ new, x.source ≠ a) :
    t'.outflows a = t.outflows a := by
  have hnone : new.filter (fun x => x.source = a) = [] := by
    simpa using hne
  simp only [outflows, h, List.filter_append, hnone, List.append_nil]

theorem move_balance (t : Token) (source target a : Address) (amount : Int) :
    (t.move source target amount).balance a
      = t.balance a - (if a = source then amount else 0)
          + (if a = target then amount else 0) := by
  by_cases ht : a = target
  · subst ht
    by_cases hs : a = source <;> simp [move, hs]
  · by_cases hs : a = source
    · subst hs
      simp [move, ht]
    · simp [move, ht, hs]

@[simp] theorem transfer_ok {t t' : Token} {source target : Address} {amount : Int} :
    t.transfer source target amount = .ok t' ↔
      0 ≤ amount ∧ amount ≤ t.balance source ∧ t.move source target amount = t' := by
  simp only [transfer, bind_ok, pure_ok, ensure_ok, exists_const, and_assoc]

@[simp] theorem transferAt_ok {d : Deployment} {env : Env}
    {caller token source target : Address} {amount : Int} {t t' : Token} :
    transferAt d env caller token source target amount t = .ok t' ↔
      token = d.token ∧ env.Covers caller ⟨token, source, target, amount⟩ ∧
        0 ≤ amount ∧ amount ≤ t.balance source ∧ t.move source target amount = t' := by
  simp only [transferAt, bind_ok, ensure_ok, transfer_ok, exists_const]

@[simp] theorem mint_ok {t t' : Token} {target : Address} {amount : Int} :
    t.mint target amount = .ok t' ↔ 0 ≤ amount ∧
      { t with balance := Function.update t.balance target (t.balance target + amount) } = t' := by
  simp only [mint, bind_ok, pure_ok, ensure_ok, exists_const]

/-- No account is overdrawn. -/
def Solvent (t : Token) : Prop := ∀ a, 0 ≤ t.balance a

theorem Solvent.move {t : Token} (h : t.Solvent) {source target : Address} {amount : Int}
    (h0 : 0 ≤ amount) (hle : amount ≤ t.balance source) :
    (t.move source target amount).Solvent := by
  intro a
  have ha := h a
  rw [move_balance]
  by_cases hs : a = source
  · subst hs
    split_ifs <;> omega
  · split_ifs <;> omega

theorem Solvent.mint {t t' : Token} (h : t.Solvent) {target : Address} {amount : Int}
    (hm : t.mint target amount = .ok t') : t'.Solvent := by
  obtain ⟨h0, rfl⟩ := mint_ok.mp hm
  intro a
  by_cases ha : a = target
  · subst ha
    have := h a
    simp only [Function.update_self]
    omega
  · simpa only [Function.update_of_ne ha] using h a

end Token

end StepFi
