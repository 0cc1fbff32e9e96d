import StepFi.Lib.Independent
import StepFi.Protocol.Payments
import Mathlib.Data.Multiset.Basic

/-!
# The order of settlements

A repayment, a fee accrual and a cancellation concern one loan each, but share the
borrower's debt, the pool's accounts, the token and the scores with all the others.
On different loans, two orders that both go through leave the same records, debts,
balances, accounts and scores (`settlements_order_free`): all they share is added up.
An order can fail where another goes through: a repayment may need the refund of a
cancellation before it.
-/

namespace StepFi.Token

/-- What the account `a` gains by the transfers. -/
def net (xs : List Transfer) (a : Address) : Int :=
  (xs.map fun x => (if a = x.target then x.amount else 0)
    - (if a = x.source then x.amount else 0)).sum

theorem moves_balance (t : Token) (xs : List Transfer) (a : Address) :
    (t.moves xs).balance a = t.balance a + net xs a := by
  induction xs generalizing t with
  | nil => exact (Int.add_zero _).symm
  | cons x xs ih =>
    rw [moves, List.foldl_cons, ← moves, ih, move_balance]
    simp only [net, List.map_cons, List.sum_cons]
    omega

end StepFi.Token

namespace StepFi.Protocol

open Lib CreditLine

/-! ## Postings -/

/-- What a call posts to the accounts that all loans share, beside the record of its
own loan. -/
structure Posting where
  loan : Loan
  debt : Int
  principal : Nat
  gain : Int
  reward : Nat
  transfers : List Transfer

/-- A state in which the order of the transfers that led to it is forgotten. -/
@[ext] structure Tally where
  line : CreditLine.Storage
  pool : LiquidityPool.Storage
  reputation : Reputation.Storage
  vendors : Address → Option Bool
  parameters : Option CreditLine.ProtocolParameters
  balance : Address → Int
  transfers : Multiset Transfer

def State.tally (s : State) : Tally where
  line := s.line
  pool := s.world.pool
  reputation := s.world.reputation
  vendors := s.world.vendors
  parameters := s.world.parameters
  balance := s.world.token.balance
  transfers := s.world.token.log

/-- The pool unlocks no more than is locked. -/
def Posting.apply (x : Posting) (v : Tally) : Tally where
  line := setLoan x.loan (setUserActiveDebt x.loan.borrower
    (v.line.userActiveDebt x.loan.borrower + x.debt) v.line)
  pool := { v.pool with
    lockedLiquidity := max 0 (v.pool.lockedLiquidity - x.principal)
    totalLiquidity := v.pool.totalLiquidity + x.gain }
  reputation := Reputation.writeScore x.loan.borrower
    (v.reputation.scores x.loan.borrower + x.reward) v.reputation
  vendors := v.vendors
  parameters := v.parameters
  balance := fun a => v.balance a + Token.net x.transfers a
  transfers := v.transfers + x.transfers

section Commute

variable {x y : Posting}

/-- Sums at two accounts, which may be the same. -/
theorem added_comm {α : Type} [AddCommSemigroup α] (f : Address → α) (a b : Address) (m k : α) :
    Function.update (Function.update f a (f a + m)) b (Function.update f a (f a + m) b + k)
      = Function.update (Function.update f b (f b + k)) a
          (Function.update f b (f b + k) a + m) := by
  by_cases hab : a = b
  · subst hab
    simp only [Function.update_self, Function.update_idem, add_right_comm]
  · rw [Function.update_of_ne (Ne.symm hab), Function.update_of_ne hab,
      Function.update_comm hab]

theorem setLoan_loans (loan : Loan) (p : Storage) (shard id : Nat) :
    (setLoan loan p).loans shard id =
      if shard = loanShard loan.loanId ∧ id = loan.loanId then some loan
      else p.loans shard id := by
  by_cases hshard : shard = loanShard loan.loanId
  · subst hshard
    simp [setLoan, Function.update_apply]
  · simp [setLoan, hshard]

theorem setLoan_comm {loan loan' : Loan} (h : loan.loanId ≠ loan'.loanId) (p : Storage) :
    setLoan loan (setLoan loan' p) = setLoan loan' (setLoan loan p) := by
  have hloans : (setLoan loan (setLoan loan' p)).loans
      = (setLoan loan' (setLoan loan p)).loans := by
    funext shard id
    simp only [setLoan_loans]
    split
    · rename_i hx
      rw [if_neg fun hy => h (hx.2.symm.trans hy.2)]
    · rfl
  exact congrArg (fun loans => { p with loans }) hloans

theorem apply_comm (h : x.loan.loanId ≠ y.loan.loanId) (v : Tally) :
    x.apply (y.apply v) = y.apply (x.apply v) := by
  have hdebts := added_comm v.line.userActiveDebt y.loan.borrower x.loan.borrower y.debt x.debt
  have hscores := added_comm v.reputation.scores y.loan.borrower x.loan.borrower y.reward x.reward
  have hline : (x.apply (y.apply v)).line = (y.apply (x.apply v)).line := by
    have hswap := setLoan_comm h
      { v.line with userActiveDebt := (y.apply (x.apply v)).line.userActiveDebt }
    refine Eq.trans ?_ hswap
    exact congrArg (fun debts => setLoan x.loan (setLoan y.loan
      { v.line with userActiveDebt := debts })) hdebts
  have hlocked : (x.apply (y.apply v)).pool = (y.apply (x.apply v)).pool := by
    have hlocked : max 0 (max 0 (v.pool.lockedLiquidity - y.principal) - x.principal)
        = max 0 (max 0 (v.pool.lockedLiquidity - x.principal) - (y.principal : Int)) := by omega
    have htotal : v.pool.totalLiquidity + y.gain + x.gain
        = v.pool.totalLiquidity + x.gain + y.gain := by omega
    exact congrArg₂ (fun locked total =>
      { v.pool with lockedLiquidity := locked, totalLiquidity := total }) hlocked htotal
  have hreputation : (x.apply (y.apply v)).reputation = (y.apply (x.apply v)).reputation :=
    congrArg (fun scores => { v.reputation with scores }) hscores
  have hbalance : (x.apply (y.apply v)).balance = (y.apply (x.apply v)).balance :=
    funext fun a => Int.add_right_comm ..
  have htransfers : (x.apply (y.apply v)).transfers = (y.apply (x.apply v)).transfers :=
    add_right_comm ..
  exact Tally.ext hline hlocked hreputation rfl rfl hbalance htransfers

end Commute

/-! ## What each call posts -/

/-- Who has a share in a repayment. -/
structure Sharing where
  treasury : Option Address
  merchantFund : Option Address
  rewards : Bool

def Tally.sharing (v : Tally) : Sharing :=
  ⟨v.pool.treasury, v.pool.merchantFund, v.line.reputationContract.isSome⟩

variable (d : Deployment)

/-- A share of the interest, when it is positive and has a recipient. -/
def feeTransfer (recipient : Option Address) (amount : Int) : List Transfer :=
  match recipient with
  | some r => if 0 < amount then [⟨d.pool, r, amount⟩] else []
  | none => []

def interestTransfers (e : Sharing) (interest : Int) : List Transfer :=
  if 0 < interest then
    feeTransfer d e.treasury (LiquidityPool.protocolShare interest)
      ++ feeTransfer d e.merchantFund (LiquidityPool.merchantShare interest)
  else []

/-- A payment passes through the credit line to the pool, which shares the interest
out; the last one brings the guarantee back, and a reward. -/
def payment (e : Sharing) (now : Nat) (loan : Loan) (amount : Int)
    (schedule : List RepaymentInstallment) : Posting :=
  let accrued := loan.accrued now
  let allocation := allocate accrued amount
  let interest := allocation.interestFeeLate
  let last := accrued.remainingBalance = amount
  { loan := accrued.repaid amount schedule
    debt := lateFee now loan - amount
    principal := allocation.principalPaid.toNat
    gain := if 0 < interest then LiquidityPool.lpShare interest else 0
    reward := if last ∧ e.rewards = true then scoreIncrease now loan else 0
    transfers := [⟨loan.borrower, d.creditLine, amount⟩, ⟨d.creditLine, d.pool, amount⟩]
      ++ interestTransfers d e interest
      ++ if last then [⟨d.creditLine, loan.borrower, loan.guaranteeAmount⟩] else [] }

/-- A record is rewritten, and the borrower's debt changes with it. -/
def Posting.record (loan : Loan) (debt : Int) (transfers : List Transfer) : Posting where
  loan
  debt
  principal := 0
  gain := 0
  reward := 0
  transfers

/-- The loan that a call settles something on. -/
def Label.settles (l : Label) : Option Nat :=
  match l.action with
  | .line (.repayLoan _ id _) => some id
  | .line (.repayInstallment _ id _ _) => some id
  | .line (.applyLateFees id) => some id
  | .line (.cancelLoan _ id) => some id
  | _ => none

/-- What the call posts when it finds `loan`. -/
def Label.posting (e : Sharing) (loan : Loan) (l : Label) : Posting :=
  let now := l.env.timestamp
  match l.action with
  | .line (.repayLoan _ _ amount) => payment d e now loan amount loan.repaymentSchedule
  | .line (.repayInstallment _ _ index amount) =>
    payment d e now loan amount (markInstallment now index loan.repaymentSchedule)
  | .line (.applyLateFees _) => .record (loan.accrued now) (lateFee now loan) []
  | .line (.cancelLoan _ _) =>
    .record { loan with status := .cancelled } 0
      [⟨d.creditLine, loan.borrower, loan.guaranteeAmount⟩]
  | _ => .record loan 0 []

/-- What the call posts, if the loan it names is there. -/
def posting (v : Tally) (l : Label) : Option Posting :=
  (l.settles.bind v.line.book.loan).map fun loan => l.posting d v.sharing loan

/-- A call that finds no loan leaves the state. -/
def act (v : Tally) (x : Option Posting) : Tally := x.elim v (·.apply v)

/-! ## Every settlement posts -/

section Posted

variable {d} {env : Env} {s s' : State} {l : Label} {loan : Loan} {amount : Int} {id : Nat}
variable {w w' : World}

/-- The other contracts after a posting. -/
def Posting.world (x : Posting) (w : World) : World :=
  { w with
    token := w.token.moves x.transfers
    pool := { w.pool with
      lockedLiquidity := max 0 (w.pool.lockedLiquidity - x.principal)
      totalLiquidity := w.pool.totalLiquidity + x.gain }
    reputation := Reputation.writeScore x.loan.borrower
      (w.reputation.scores x.loan.borrower + x.reward) w.reputation }

theorem tally_posted {x : Posting} (hworld : s'.world = x.world s.world)
    (hline : s'.line = setLoan x.loan (setUserActiveDebt x.loan.borrower
      (s.line.userActiveDebt x.loan.borrower + x.debt) s.line)) :
    s'.tally = x.apply s.tally := by
  have hlog := Token.moves_log s.world.token x.transfers
  have hbalance : s'.world.token.balance = (x.apply s.tally).balance := by
    funext a
    rw [hworld]
    exact Token.moves_balance s.world.token x.transfers a
  have htransfers : s'.tally.transfers = (x.apply s.tally).transfers := by
    show (s'.world.token.log : Multiset Transfer) = _
    rw [hworld]
    exact congrArg Multiset.ofList hlog
  have hvendors : s'.world.vendors = s.world.vendors := by
    rw [hworld]
    rfl
  have hparameters : s'.world.parameters = s.world.parameters := by
    rw [hworld]
    rfl
  exact Tally.ext hline (congrArg World.pool hworld) (congrArg World.reputation hworld)
    hvendors hparameters hbalance htransfers

theorem writeScore_unmoved (b : Address) (p : Reputation.Storage) :
    Reputation.writeScore b (p.scores b + 0) p = p :=
  congrArg (fun scores => { p with scores }) (Function.update_eq_self b p.scores)

/-- A record alone posts nothing to the pool or to the scores. -/
theorem record_world {debt : Int} {transfers : List Transfer} (hw : w.Sound d) :
    (Posting.record loan debt transfers).world w = { w with token := w.token.moves transfers } := by
  have hlocked : max 0 (w.pool.lockedLiquidity - (0 : Nat)) = w.pool.lockedLiquidity := by
    have hnonneg : 0 ≤ w.pool.lockedLiquidity := hw.pool.accounts.locked_nonneg
    omega
  have htotal : w.pool.totalLiquidity + 0 = w.pool.totalLiquidity := Int.add_zero _
  simp only [Posting.world, Posting.record, hlocked, htotal, writeScore_unmoved]

theorem feePaid_moves (recipient : Option Address) (t : Token) :
    LiquidityPool.feePaid d recipient amount t = t.moves (feeTransfer d recipient amount) := by
  unfold LiquidityPool.feePaid feeTransfer
  cases recipient with
  | none => rfl
  | some r =>
    dsimp only
    split <;> rfl

/-- The interest is shared out as the pool is configured. -/
theorem repaidLedger_moves (e : Sharing) {q : LiquidityPool.Storage} (t : Token)
    (htreasury : q.treasury = e.treasury) (hfund : q.merchantFund = e.merchantFund)
    {principal interest : Int} (hsum : principal + interest = amount) :
    LiquidityPool.repaidLedger d q d.creditLine principal interest t
      = t.moves (⟨d.creditLine, d.pool, amount⟩ :: interestTransfers d e interest) := by
  subst hsum
  unfold LiquidityPool.repaidLedger interestTransfers
  dsimp only
  split
  · rw [feePaid_moves, feePaid_moves, ← Token.moves_append, htreasury, hfund]
    rfl
  · rfl

/-- A payment that reached the pool. -/
theorem passedOn_world {e : Sharing} {w₁ w₂ : World} {env' : Env} {token pool borrower : Address}
    {principal interest : Int} (hsum : principal + interest = amount)
    (htreasury : w.pool.treasury = e.treasury) (hfund : w.pool.merchantFund = e.merchantFund)
    (h₁ : (clients d).transfer env token borrower d.creditLine amount w = .ok w₁)
    (h₂ : (clients d).receiveRepayment env' pool d.creditLine principal interest w₁ = .ok w₂) :
    w₂ = { w with
      token := w.token.moves ([⟨borrower, d.creditLine, amount⟩, ⟨d.creditLine, d.pool, amount⟩]
        ++ interestTransfers d e interest)
      pool := LiquidityPool.repaid principal interest w.pool } := by
  obtain ⟨-, -, -, -, rfl⟩ := transfer_ok.mp h₁
  obtain ⟨-, q, hq, rfl⟩ := callPool_ok.mp h₂
  obtain ⟨-, -, -, -, -, -, rfl⟩ := LiquidityPool.receiveRepayment_spec hq
  have hledger := repaidLedger_moves (d := d) e (w.token.move borrower d.creditLine amount)
    htreasury hfund hsum
  exact congrArg (fun token => { w with
    token, pool := LiquidityPool.repaid principal interest w.pool }) hledger

/-- The score after a loan was closed. -/
theorem reward_world {p : Storage} {e : Sharing} {borrower : Address}
    (hrewards : p.reputationContract.isSome = e.rewards)
    (h : rewardRepayment (clients d) env p borrower loan w = .ok w') :
    w' = { w with reputation := Reputation.writeScore borrower (w.reputation.scores borrower
      + if e.rewards = true then scoreIncrease env.timestamp loan else 0) w.reputation } := by
  rcases rewardRepayment_ok.mp h with ⟨hnone, rfl⟩ | ⟨reputation, hsome, h⟩
  · rw [hnone] at hrewards
    rw [← hrewards, if_neg (by decide), writeScore_unmoved]
  · rw [hsome] at hrewards
    obtain ⟨-, q, hq, rfl⟩ := callReputation_ok.mp h
    obtain ⟨-, -, -, -, rfl⟩ := Reputation.raise_ok.mp hq
    rw [← hrewards]
    rfl

/-- What the calls of a repayment do to the other contracts. -/
theorem repayFlow_world {p : Storage} {e : Sharing} {schedule : List RepaymentInstallment}
    (hs : (loan.accrued env.timestamp).Sound) (hpos : 0 < amount)
    (hle : amount ≤ (loan.accrued env.timestamp).remainingBalance)
    (htreasury : w.pool.treasury = e.treasury) (hfund : w.pool.merchantFund = e.merchantFund)
    (hrewards : p.reputationContract.isSome = e.rewards)
    (hlast : lastDueDate { loan with repaymentSchedule := schedule } = lastDueDate loan)
    (h : RepayFlow (clients d) env p loan amount schedule w w') :
    w' = (payment d e env.timestamp loan amount schedule).world w := by
  have halloc := allocate_spec hs (Int.le_of_lt hpos) hle
  have hnat : (((allocate (loan.accrued env.timestamp) amount).principalPaid.toNat : Nat) : Int)
      = (allocate (loan.accrued env.timestamp) amount).principalPaid :=
    Int.toNat_of_nonneg halloc.principal.1
  have hdue : scoreIncrease env.timestamp ((loan.accrued env.timestamp).repaid amount schedule)
      = scoreIncrease env.timestamp loan := congrArg (if env.timestamp < · then 15 else 10) hlast
  obtain ⟨token, pool, w₁, w₂, -, -, h₁, h₂, h₃⟩ := h
  have hpaid := passedOn_world halloc.interestFeeLate.2 htreasury hfund h₁ h₂
  by_cases hclose : (loan.accrued env.timestamp).remainingBalance = amount
  · rw [if_pos hclose] at h₃
    obtain ⟨w₃, h₃, h₄⟩ := h₃
    obtain ⟨-, -, -, -, rfl⟩ := transfer_ok.mp h₃
    rw [reward_world hrewards h₄, hpaid, hdue]
    simp only [Posting.world, payment, hclose, true_and, if_true, hnat, Token.moves_append]
    rfl
  · rw [if_neg hclose] at h₃
    rw [h₃, hpaid]
    simp only [Posting.world, payment, hclose, false_and, if_false, writeScore_unmoved, hnat,
      List.append_nil]
    rfl

theorem setUserActiveDebt_unmoved (b : Address) (p : Storage) :
    setUserActiveDebt b (p.userActiveDebt b + 0) p = p := by
  rw [Int.add_zero]
  exact congrArg (fun userActiveDebt => { p with userActiveDebt })
    (Function.update_eq_self b p.userActiveDebt)

theorem setLoan_unmoved {p : Storage} (h : p.book.loan loan.loanId = some loan) :
    setLoan loan p = p := by
  have hloans : (setLoan loan p).loans = p.loans := by
    funext shard id
    rw [setLoan_loans]
    split
    · rename_i hx
      rw [hx.1, hx.2]
      exact h.symm
    · rfl
  exact congrArg (fun loans => { p with loans }) hloans

/-- The record that a posting carries is the one it was made for. -/
theorem posting_loanId {e : Sharing} : (l.posting d e loan).loan.loanId = loan.loanId := by
  unfold Label.posting
  split <;> rfl

/-- A payment of `amount` on `loan`, which leaves it with `schedule`, was taken. -/
structure Paid (d : Deployment) (now id : Nat) (amount : Int) (s s' : State) (loan : Loan)
    (schedule : List RepaymentInstallment) : Prop where
  stored : s.line.book.loan id = some loan
  active : loan.status = .active
  sound : (loan.accrued now).Sound
  pos : 0 < amount
  le : amount ≤ (loan.accrued now).remainingBalance
  posted : s'.tally = (payment d s.tally.sharing now loan amount schedule).apply s.tally

theorem settle_paid {borrower : Address} {check : Loan → Except Failure Unit} {r : Int}
    {mark : List RepaymentInstallment → List RepaymentInstallment} (hb : s.line.book.Sound)
    (hlast : ∀ loan : Loan, lastDueDate { loan with
      repaymentSchedule := mark loan.repaymentSchedule } = lastDueDate loan)
    (h : settle (clients d) env borrower id amount check mark s = .ok (r, s')) :
    ∃ loan, Paid d env.timestamp id amount s s' loan (mark loan.repaymentSchedule) := by
  obtain ⟨-, loan, hloan, rfl, hactive, -, hfits, -, hpos, hle, -, -, hflow, -, hline⟩ :=
    (settle_ok hb).mp h
  have hs := (hb.loans id loan hloan).accrued hactive hfits
  refine ⟨loan, hloan, hactive, hs, hpos, hle, tally_posted ?_ ?_⟩
  · exact repayFlow_world hs hpos hle rfl rfl rfl (hlast loan) hflow
  · rw [hline, Int.add_sub_assoc]
    rfl

/-- A settlement does to the state what it posts. -/
theorem Step.posted (hi : Invariant d s) (h : Step d s l s') (hsettles : l.settles = some id) :
    ∃ loan, s.line.book.loan id = some loan ∧
      s'.tally = (l.posting d s.tally.sharing loan).apply s.tally := by
  obtain ⟨-, -, htaken⟩ := h
  obtain ⟨env, action⟩ := l
  have hrecorded : ∀ {loan : Loan} {debt : Int} {xs : List Transfer},
      s'.world = { s.world with token := s.world.token.moves xs } →
      s'.line = setLoan loan (setUserActiveDebt loan.borrower
        (s.line.userActiveDebt loan.borrower + debt) s.line) →
      s'.tally = (Posting.record loan debt xs).apply s.tally := fun hworld hline =>
    tally_posted (hworld.trans (record_world hi.world).symm) hline
  cases action with
  | line call =>
    cases call with
    | repayLoan borrower loanId amount =>
      obtain rfl := Option.some.inj hsettles
      obtain ⟨⟨r, t⟩, hsettle, rfl⟩ := map_ok.mp htaken
      obtain ⟨loan, hpaid⟩ := settle_paid hi.book (fun _ => rfl) hsettle
      exact ⟨loan, hpaid.stored, hpaid.posted⟩
    | repayInstallment borrower loanId index amount =>
      obtain rfl := Option.some.inj hsettles
      obtain ⟨⟨r, t⟩, hsettle, rfl⟩ := map_ok.mp htaken
      obtain ⟨loan, hpaid⟩ := settle_paid hi.book
        (fun _ => lastDueDate_reschedule (markInstallment_dueDates env.timestamp index _)) hsettle
      exact ⟨loan, hpaid.stored, hpaid.posted⟩
    | applyLateFees loanId =>
      obtain rfl := Option.some.inj hsettles
      obtain ⟨loan, hloan, -, -, hworld, hline⟩ := applyLateFees_spec hi.book htaken
      refine ⟨loan, hloan, hrecorded hworld ?_⟩
      rcases hline with ⟨hsame, hfee⟩ | hline
      · -- nothing accrued, and the record is written back as it was
        have hunmoved : loan.accrued env.timestamp = loan := charged_of_no_fee hfee
        have hstored : s.line.book.loan loan.loanId = some loan :=
          hi.book.keyed _ _ hloan ▸ hloan
        show s'.line = setLoan (loan.accrued env.timestamp) (setUserActiveDebt loan.borrower
          (s.line.userActiveDebt loan.borrower + lateFee env.timestamp loan) s.line)
        rw [hunmoved, hfee, setUserActiveDebt_unmoved, setLoan_unmoved hstored, hsame]
      · exact hline
    | cancelLoan caller loanId =>
      obtain rfl := Option.some.inj hsettles
      obtain ⟨loan, hloan, -, ⟨token, -, hrefund⟩, hline⟩ := cancelLoan_spec hi.book htaken
      obtain ⟨-, -, -, -, hworld⟩ := transfer_ok.mp hrefund
      refine ⟨loan, hloan, hrecorded hworld.symm ?_⟩
      rw [hline, setUserActiveDebt_unmoved]
    | _ => cases hsettles
  | _ => cases hsettles

theorem Step.settled_posts (hi : Invariant d s) (h : Step d s l s') (hp : l.settles.isSome = true) :
    s'.tally = act s.tally (posting d s.tally l) := by
  obtain ⟨id, hid⟩ := Option.isSome_iff_exists.mp hp
  obtain ⟨loan, hloan, htally⟩ := h.posted hi hid
  have hposting : posting d s.tally l = some (l.posting d s.tally.sharing loan) := by
    unfold posting
    rw [hid]
    exact congrArg (Option.map _) hloan
  rw [hposting]
  exact htally

/-- A posting changes nothing that another loan's is made from. -/
theorem posting_kept {x : Posting} {m : Label} {v : Tally}
    (hne : m.settles ≠ some x.loan.loanId) : posting d (x.apply v) m = posting d v m := by
  unfold posting
  cases hm : m.settles with
  | none => rfl
  | some id =>
    have hid : id ≠ x.loan.loanId := fun heq => hne (heq ▸ hm)
    have hloan : (x.apply v).line.book.loan id = v.line.book.loan id := by
      show (setLoan x.loan _).book.loan id = _
      rw [book_setLoan]
      exact Function.update_of_ne hid ..
    exact congrArg (Option.map _) hloan

end Posted

/-! ## Every order -/

variable {d : Deployment} {s t t' : State} {tr tr' : List (State × Label)}

theorem posting_keyed (hb : s.line.book.Sound) {l : Label} {x : Posting}
    (h : posting d s.tally l = some x) : l.settles = some x.loan.loanId := by
  obtain ⟨loan, hloan, rfl⟩ := Option.map_eq_some_iff.mp h
  obtain ⟨id, hid, hloan⟩ := Option.bind_eq_some_iff.mp hloan
  rw [posting_loanId, hid, hb.keyed id loan hloan]

/-- Settlements, each on a loan of its own. -/
abbrev OnOwnLoans (ls : List Label) : Prop :=
  Apart (fun l => l.settles.isSome = true) Label.settles ls

theorem settlements_independent (d : Deployment) :
    Independent Deployed (Step d) (fun l => l.settles.isSome = true) Label.settles State.tally
      (fun s l => posting d s.tally l) act where
  acts s l s' hreach hp h := h.settled_posts (invariant_of_reachable hreach) hp
  keeps s l s' m hreach hp h hne := by
    have hi := invariant_of_reachable hreach
    rw [h.settled_posts hi hp]
    cases hx : posting d s.tally l with
    | none => rfl
    | some x => exact posting_kept fun heq => hne (heq.trans (posting_keyed hi.book hx).symm)
  commutes s l m v hreach hne := by
    have hb := (invariant_of_reachable hreach).book
    cases hx : posting d s.tally l with
    | none => rfl
    | some x =>
      cases hy : posting d s.tally m with
      | none => rfl
      | some y =>
        refine (apply_comm (fun heq => hne ?_) v).symm
        rw [posting_keyed hb hx, posting_keyed hb hy, heq]

/-- From every reachable state, repayments, fee accruals and cancellations on
different loans lead to the same state in any two orders that both go through, but for
the order of their transfers. -/
theorem settlements_order_free (hs : Reachable Deployed (Step d) s) (h : Run (Step d) s tr t)
    (h' : Run (Step d) s tr' t') (hperm : (tr.map Prod.snd).Perm (tr'.map Prod.snd))
    (hloans : OnOwnLoans (tr.map Prod.snd)) : t.tally = t'.tally :=
  (settlements_independent d).order_free hs h h' hloans hperm

/-- One loan of borrower `21` paid in full and another in part. -/
def payments : List Label := [repay 21 1 1070, repay 21 2 300]

/-- The two payments in both orders: only the token's log tells them apart. -/
theorem settlements_order_free_sample : ∃ s t t' : State,
    Reachable Deployed (Step .sample) s ∧ t.world.token.log ≠ t'.world.token.log ∧
    t.tally = t'.tally := by
  have hrun : (replay (take .sample) sampleStart
      (configure ++ [openLoan 21, openLoan 21])).toOption.map (fun r =>
        ((replay (take .sample) r.2 payments).toOption.map id).bind fun x =>
          ((replay (take .sample) r.2 payments.reverse).toOption.map id).map fun y =>
            decide (x.2.world.token.log ≠ y.2.world.token.log)) = some (some true) := by
    decide +kernel
  obtain ⟨tr, s, hr, hobs⟩ := replay_observed hrun
  have hreach := (run_of_replay (by decide) hr).reachable sampleStart_deployed
  obtain ⟨x, hx, hobs⟩ := Option.bind_eq_some_iff.mp hobs
  obtain ⟨y, hy, hlogs⟩ := Option.map_eq_some_iff.mp hobs
  obtain ⟨tr₁, t, ht, rfl⟩ := replay_observed hx
  obtain ⟨tr₂, t', ht', rfl⟩ := replay_observed hy
  have hlabels : (tr₁.map Prod.snd).Perm (tr₂.map Prod.snd) := by
    rw [replay_labels ht, replay_labels ht']
    exact (List.reverse_perm payments).symm
  have hloans : OnOwnLoans (tr₁.map Prod.snd) := by
    rw [replay_labels ht]
    decide
  exact ⟨s, t, t', hreach, of_decide_eq_true hlogs, settlements_order_free hreach
    (run_of_replay (by decide) ht) (run_of_replay (by decide) ht') hlabels hloans⟩

end StepFi.Protocol
