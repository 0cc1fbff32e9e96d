import StepFi.CreditLine.Reader

/-!
# The records and the index

Loan ids come from a counter, records are kept in shards, and each borrower's ids
in pages of 32. `Filing` says what a call can do to either; `Shelved` is the
invariant of a run: the pages of a borrower hold the ids that the run gave to
its loans, oldest first (`created`). From it the paginated reads return the
loans asked for (`userLoans_exact`).
-/

namespace StepFi.CreditLine

open Lib

variable {W : Type} {c : Clients W} {env : Env} {call : Call} {s s' : State W} {l : Label W}
variable {tr : List (State W × Label W)} {p p' : Storage} {x : Index}
variable {id : Nat} {borrower : Address} {loan : Loan} {ids : List Nat}

/-! ## What a call writes -/

/-- The borrower a call opens a loan for. -/
def Call.opens : Call → Option Address
  | .createLoan r => some r.user
  | .requestLoan r => some r.user
  | _ => none

def Label.opens : Label W → Option Address
  | .call _ call => call.opens
  | .world _ => none

/-- What a step can write: nothing, a stored loan's record, or a new record with
its index entry. -/
inductive Filing (opens : Option Address) (p p' : Storage) : Prop
  | keep : opens = none → p'.loanCounter = p.loanCounter → p'.loans = p.loans →
      p'.index = p.index → Filing opens p p'
  | rewrite (old new : Loan) : opens = none → p'.loanCounter = p.loanCounter →
      p.book.loan new.loanId = some old → new.borrower = old.borrower →
      p'.loans = (setLoan new p).loans → p'.index = p.index → Filing opens p p'
  | file (loan : Loan) : opens = some loan.borrower → loan.loanId = p.loanCounter + 1 →
      Files loan p p' → Filing opens p p'

theorem Filing.rewritten {old new : Loan} {q : Storage}
    (hold : p.book.loan old.loanId = some old) (hid : new.loanId = old.loanId)
    (hborrower : new.borrower = old.borrower) (hcounter : q.loanCounter = p.loanCounter)
    (hloans : q.loans = p.loans) (hindex : q.index = p.index) :
    Filing none p (setLoan new q) := by
  refine .rewrite old new rfl hcounter (hid ▸ hold) hborrower ?_ hindex
  simp only [setLoan, hloans]

theorem settle_filing {amount r : Int} {check : Loan → Except Failure Unit}
    {mark : List RepaymentInstallment → List RepaymentInstallment} (hb : s.line.book.Sound)
    (h : settle c env borrower id amount check mark s = .ok (r, s')) :
    Filing none s.line s'.line := by
  obtain ⟨-, loan, hloan, -, -, -, -, -, -, -, -, -, -, -, hline⟩ := (settle_ok hb).mp h
  obtain rfl := hb.keyed _ _ hloan
  rw [hline]
  exact .rewritten hloan rfl rfl rfl rfl rfl

theorem exec_filing (hb : s.line.book.Sound) (h : exec c env call s = .ok s') :
    Filing call.opens s.line s'.line := by
  cases call with
  | createLoan r =>
    obtain ⟨⟨id, s₁⟩, h₁, rfl⟩ := map_ok.mp h
    obtain ⟨loan, hissued, -, -, hid, -, -, -, -, -, hfiles⟩ := createLoan_spec h₁
    exact .file loan (congrArg some hissued.borrower.symm) hid hfiles
  | requestLoan r =>
    obtain ⟨⟨id, s₁⟩, h₁, rfl⟩ := map_ok.mp h
    obtain ⟨loan, hissued, -, hid, -, -, -, -, -, hfiles⟩ := requestLoan_spec h₁
    exact .file loan (congrArg some hissued.borrower.symm) hid hfiles
  | approveLoan loanId =>
    obtain ⟨⟨approved, s₁⟩, h₁, rfl⟩ := map_ok.mp h
    obtain ⟨loan, hloan, -, rfl, -, hline⟩ := approveLoan_spec hb h₁
    obtain rfl := hb.keyed _ _ hloan
    rw [hline]
    exact .rewritten hloan rfl rfl rfl rfl rfl
  | cancelLoan caller loanId =>
    obtain ⟨loan, hloan, -, -, hline⟩ := cancelLoan_spec hb h
    obtain rfl := hb.keyed _ _ hloan
    rw [hline]
    exact .rewritten hloan rfl rfl rfl rfl rfl
  | repayLoan borrower loanId amount =>
    obtain ⟨⟨r, s₁⟩, h₁, rfl⟩ := map_ok.mp h
    exact settle_filing hb h₁
  | repayInstallment borrower loanId index amount =>
    obtain ⟨⟨r, s₁⟩, h₁, rfl⟩ := map_ok.mp h
    exact settle_filing hb h₁
  | applyLateFees loanId =>
    obtain ⟨loan, hloan, -, -, -, ⟨hline, -⟩ | hline⟩ := applyLateFees_spec hb h
    · rw [hline]
      exact .keep rfl rfl rfl rfl
    · obtain rfl := hb.keyed _ _ hloan
      rw [hline]
      exact .rewritten hloan rfl rfl rfl rfl rfl
  | markDefaulted loanId =>
    obtain ⟨-, loan, hloan, -, -, -, -, -, hline⟩ := (markDefaulted_ok hb).mp h
    obtain rfl := hb.keyed _ _ hloan
    rw [hline]
    exact .rewritten hloan rfl rfl rfl rfl rfl
  | _ =>
    obtain ⟨-, hkeeps⟩ := exec_keeps (by trivial) h
    exact .keep rfl hkeeps.counter hkeeps.loans hkeeps.index

theorem Step.filing (hb : s.line.book.Sound) (h : Step c s l s') :
    Filing l.opens s.line s'.line := by
  cases l with
  | call env call => exact exec_filing hb h
  | world w =>
    cases h
    exact .keep rfl rfl rfl rfl

/-! ## The index as lists -/

/-- The pages of the index hold these ids. Page numbers are 32 bits wide, so past
`2 ^ 37` ids the pages are shared and hold nothing in order. -/
structure Index.Lists (x : Index) (ids : Address → List Nat) : Prop where
  count : ∀ borrower, x.count borrower = (ids borrower).length
  pages : ∀ borrower, (ids borrower).length ≤ 2 ^ 37 →
    Paged pageSize (ids borrower) (x.page borrower)

theorem Index.Lists.empty : Storage.empty.index.Lists fun _ => [] where
  count := fun _ => rfl
  pages := fun _ _ => .nil

theorem Index.Lists.append {ids : Address → List Nat} (h : x.Lists ids) (borrower : Address)
    (loanId : Nat) : (x.append borrower loanId).Lists
      (Function.update ids borrower (ids borrower ++ [loanId])) where
  count := by
    intro b
    by_cases hb : b = borrower
    · subst hb
      simp only [Index.append, Function.update_self, h.count, List.length_append,
        List.length_singleton]
    · simp only [Index.append, Function.update_of_ne hb, h.count]
  pages := by
    intro b hlen
    by_cases hb : b = borrower
    · subst hb
      simp only [Index.append, Function.update_self, List.length_append,
        List.length_singleton] at hlen ⊢
      rw [h.count, Nat.mod_eq_of_lt (pageNum_lt (by omega))]
      exact (h.pages b (by omega)).push (by decide) loanId
    · simp only [Index.append, Function.update_of_ne hb] at hlen ⊢
      exact h.pages b hlen

/-! ## Reading page after page -/

/-- On pages that hold `ids` and nothing else, `stop - idx` rounds and the last check
read all that was asked for. -/
theorem readPages_ok {stop fuel idx : Nat} {result : List Nat}
    (hpages : Paged pageSize ids (p.userLoanPage borrower)) (hlen : ids.length ≤ 2 ^ 37)
    (hstop : stop ≤ ids.length) (hfuel : stop - idx < fuel) :
    readPages p borrower stop fuel idx result =
      some (.ok (result ++ (ids.drop idx).take (stop - idx))) := by
  have htaken : ((ids.drop idx).take (stop - idx)).length = stop - idx := by
    rw [List.length_take, List.length_drop]
    omega
  refine readPages_complete ?_ ?_ hfuel
  · intro i page _ _ hpage
    rw [hpages] at hpage
    split at hpage
    · obtain rfl := Option.some.inj hpage
      exact .inl (List.length_take_le ..)
    · cases hpage
  · conv_lhs => rw [← htaken]
    refine slots_slice.mpr fun i _ _ hi => ?_
    obtain ⟨stored, hstored, -⟩ := hpages.from_position hi
    have hslot := hpages.slot (i / pageSize) (i % pageSize)
    have hdiv := Nat.div_add_mod i pageSize
    rw [Nat.mul_comm] at hdiv
    rw [hstored, Option.bind_some, if_pos (Nat.mod_lt i (by decide)), hdiv] at hslot
    rw [← hslot, Storage.slotAt, pageNumber_eq (by omega), hstored]

theorem getUserLoanIdsPaginated_ok {start limit fuel : Nat}
    (hcount : p.userLoanCount borrower = ids.length)
    (hpages : Paged pageSize ids (p.userLoanPage borrower)) (hlen : ids.length < 2 ^ 37)
    (hfuel : limit < fuel) :
    getUserLoanIdsPaginated p borrower start limit fuel =
      some (.ok ((ids.drop start).take limit)) := by
  simp only [getUserLoanIdsPaginated, getUserLoanCount, hcount]
  split
  · rename_i hnone
    rcases hnone with rfl | hstart
    · rfl
    · rw [List.drop_of_length_le hstart, List.take_nil]
  · rw [readPages_ok hpages (Nat.le_of_lt hlen) (Nat.min_le_right _ _) (by omega)]
    have hall : (ids.drop start).length = ids.length - start := List.length_drop
    congr 2
    rw [List.nil_append, List.take_eq_take_iff, hall]
    omega

/-! ## The records of a run -/

/-- The ids a run gave to the loans of a borrower, oldest first: each call that
opens a loan takes the next one. -/
def created (borrower : Address) (tr : List (State W × Label W)) : List Nat :=
  tr.filterMap fun x =>
    if x.2.opens = some borrower then some (x.1.line.loanCounter + 1) else none

theorem created_keep (h : l.opens = none) :
    created borrower (tr ++ [(s, l)]) = created borrower tr := by
  simp [created, h]

theorem created_open {a : Address} (h : l.opens = some a) :
    (fun b => created b (tr ++ [(s, l)])) = Function.update (fun b => created b tr) a
      (created a tr ++ [s.line.loanCounter + 1]) := by
  funext b
  by_cases hb : b = a
  · subst hb
    simp [created, h]
  · have hne : ¬a = b := fun heq => hb heq.symm
    simp [created, h, Function.update_of_ne hb, hne]

/-- The ids of each borrower's loans, in a book numbered without a gap. -/
structure Catalogue (b : Book) (ids : Address → List Nat) : Prop where
  dense : ∀ id ∈ Finset.Icc 1 b.counter, ∃ loan, b.loan id = some loan
  mem : ∀ borrower id, id ∈ ids borrower ↔
    ∃ loan, b.loan id = some loan ∧ loan.borrower = borrower
  nodup : ∀ borrower, (ids borrower).Nodup

theorem Catalogue.empty : Catalogue Storage.empty.book fun _ => [] where
  dense := by
    intro id hid
    exact absurd (Finset.mem_Icc.mp hid) (by simp [Storage.book, Storage.empty]; omega)
  mem := by
    intro borrower id
    simp [Storage.book, Storage.empty]
  nodup := fun _ => List.nodup_nil

section Catalogue

variable {b b' : Book} {ids : Address → List Nat} {old new : Loan}

/-- A record rewritten under its borrower. -/
theorem Catalogue.set (h : Catalogue b ids) (hold : b.loan new.loanId = some old)
    (hborrower : new.borrower = old.borrower) (hcounter : b'.counter = b.counter)
    (hloan : b'.loan = Function.update b.loan new.loanId (some new)) : Catalogue b' ids where
  dense := by
    intro id hid
    rw [hloan]
    by_cases hkey : id = new.loanId
    · subst hkey
      exact ⟨new, Function.update_self ..⟩
    · rw [Function.update_of_ne hkey]
      exact h.dense id (hcounter ▸ hid)
  mem := by
    intro borrower id
    rw [hloan, h.mem]
    by_cases hkey : id = new.loanId
    · subst hkey
      rw [Function.update_self, hold]
      simp only [Option.some.injEq, exists_eq_left', hborrower]
    · rw [Function.update_of_ne hkey]
  nodup := h.nodup

/-- A record with the next id, last among its borrower's. -/
theorem Catalogue.push (h : Catalogue b ids) (hfilled : Filled b.counter b.loan)
    (hid : new.loanId = b.counter + 1) (hcounter : b'.counter = b.counter + 1)
    (hloan : b'.loan = Function.update b.loan new.loanId (some new)) :
    Catalogue b' (Function.update ids new.borrower (ids new.borrower ++ [new.loanId])) := by
  have hfresh : ∀ borrower, new.loanId ∉ ids borrower := by
    intro borrower hmem
    obtain ⟨old, hold, -⟩ := (h.mem borrower _).mp hmem
    have := Finset.mem_Icc.mp (hfilled _ _ hold)
    omega
  constructor
  · intro id hmem
    rw [hloan]
    by_cases hkey : id = new.loanId
    · subst hkey
      exact ⟨new, Function.update_self ..⟩
    · rw [Function.update_of_ne hkey]
      rw [hcounter, Finset.mem_Icc] at hmem
      exact h.dense id (Finset.mem_Icc.mpr (by omega))
  · intro borrower id
    rw [hloan]
    by_cases hkey : id = new.loanId
    · subst hkey
      rw [Function.update_self]
      simp only [Option.some.injEq, exists_eq_left']
      by_cases hb : borrower = new.borrower
      · subst hb
        simp
      · rw [Function.update_of_ne hb]
        exact ⟨fun hmem => absurd hmem (hfresh borrower), fun heq => absurd heq.symm hb⟩
    · rw [Function.update_of_ne hkey, ← h.mem]
      by_cases hb : borrower = new.borrower
      · subst hb
        simp [hkey]
      · rw [Function.update_of_ne hb]
  · intro borrower
    by_cases hb : borrower = new.borrower
    · subst hb
      rw [Function.update_self, ← List.concat_eq_append, List.nodup_concat]
      exact ⟨hfresh _, h.nodup _⟩
    · rw [Function.update_of_ne hb]
      exact h.nodup borrower

end Catalogue

theorem loans_setLoan (h : p'.loans = (setLoan loan p).loans) :
    p'.book.loan = Function.update p.book.loan loan.loanId (some loan) := by
  have hbook := congrArg Book.loan (book_setLoan loan p)
  simp only [Storage.book] at hbook ⊢
  rw [h, hbook]

/-- Every record is in its own shard. -/
def Storage.Sharded (p : Storage) : Prop :=
  ∀ shard id loan, p.loans shard id = some loan → shard = loanShard id

theorem Storage.Sharded.set (hs : p.Sharded) (h : p'.loans = (setLoan loan p).loans) :
    p'.Sharded := by
  intro shard id old hold
  rw [h, setLoan] at hold
  dsimp only at hold
  by_cases hshard : shard = loanShard loan.loanId
  · subst hshard
    rw [Function.update_self] at hold
    by_cases hid : id = loan.loanId
    · rw [hid]
    · rw [Function.update_of_ne hid] at hold
      exact hs _ _ _ hold
  · rw [Function.update_of_ne hshard] at hold
    exact hs _ _ _ hold

/-- A borrower's ids are those created in the run, and the index holds them in that
order. -/
structure Shelved (tr : List (State W × Label W)) (s : State W) : Prop where
  book : s.line.book.Sound
  sharded : s.line.Sharded
  catalogue : Catalogue s.line.book fun borrower => created borrower tr
  index : s.line.index.Lists fun borrower => created borrower tr

theorem Shelved.start (h : Deployed s) : Shelved [] s := by
  rw [Deployed] at h
  constructor
  · rw [h]
    exact Book.Sound.empty
  · intro shard id loan hloan
    rw [h] at hloan
    cases hloan
  · rw [h]
    exact .empty
  · rw [h]
    exact .empty

theorem Shelved.step (hs : Shelved tr s) (h : Step c s l s') : Shelved (tr ++ [(s, l)]) s' := by
  have hbook := Step.sound hs.book h
  cases Step.filing hs.book h with
  | keep hopens hcounter hloans hindex =>
    have hsame : s'.line.book.loan = s.line.book.loan := by
      simp only [Storage.book, hloans]
    refine ⟨hbook, ?_, ?_, ?_⟩
    · rw [Storage.Sharded, hloans]
      exact hs.sharded
    · simp only [created_keep hopens]
      constructor
      · intro id hid
        have hcounter' : s'.line.book.counter = s.line.book.counter := hcounter
        rw [hsame]
        exact hs.catalogue.dense id (hcounter' ▸ hid)
      · rw [hsame]
        exact hs.catalogue.mem
      · exact hs.catalogue.nodup
    · simp only [hindex, created_keep hopens]
      exact hs.index
  | rewrite old new hopens hcounter hold hborrower hloans hindex =>
    refine ⟨hbook, hs.sharded.set hloans, ?_, ?_⟩
    · simp only [created_keep hopens]
      exact hs.catalogue.set hold hborrower hcounter (loans_setLoan hloans)
    · simp only [hindex, created_keep hopens]
      exact hs.index
  | file loan hopens hid hfiles =>
    have hnone : s.line.book.loan loan.loanId = none := by
      rw [Option.eq_none_iff_forall_ne_some]
      intro old hold
      have := Finset.mem_Icc.mp (hs.book.filled _ _ hold)
      have hcounter : s.line.book.counter = s.line.loanCounter := rfl
      omega
    have hcreated : (fun b => created b (tr ++ [(s, l)])) = Function.update
        (fun b => created b tr) loan.borrower (created loan.borrower tr ++ [loan.loanId]) := by
      rw [hid]
      exact created_open hopens
    refine ⟨hbook, hs.sharded.set hfiles.loans, ?_, ?_⟩
    · rw [hcreated]
      exact hs.catalogue.push hs.book.filled hid hfiles.counter (loans_setLoan hfiles.loans)
    · rw [hcreated, hfiles.index hnone]
      exact hs.index.append loan.borrower loan.loanId

theorem Run.shelved {s₀ : State W} (h : Run (Step c) s₀ tr s) (h0 : Deployed s₀) :
    Shelved tr s :=
  h.history (P := Shelved) (.start h0) fun _ _ _ _ hs hstep => hs.step hstep

/-! ## What a reader gets -/

/-- The id in slot `i` of page `k` of a borrower's index. -/
def Storage.indexed (p : Storage) (borrower : Address) (k i : Nat) : Option Nat :=
  (p.userLoanPage borrower k).bind (·[i]?)

/-- Reads of the given sizes, each from where the last one ended. -/
def readInTurn (p : Storage) (borrower : Address) (fuel : Nat) :
    (start : Nat) → (sizes : List Nat) → List (Option (Except Failure (List Loan)))
  | _, [] => []
  | start, size :: sizes =>
    getUserLoans p borrower start size fuel :: readInTurn p borrower fuel (start + size) sizes

theorem mapM_readLoan {loans : List Loan}
    (h : ∀ loan ∈ loans, readLoan p loan.loanId = .ok loan) :
    (loans.map (·.loanId)).mapM (readLoan p) = .ok loans := by
  induction loans with
  | nil => rfl
  | cons loan loans ih =>
    rw [List.map_cons, List.mapM_cons, h loan List.mem_cons_self, ok_bind,
      ih fun x hx => h x (List.mem_cons_of_mem _ hx), ok_bind]
    rfl

theorem getUserLoans_ok {loans : List Loan} {start limit fuel : Nat}
    (hcount : p.userLoanCount borrower = loans.length)
    (hpages : Paged pageSize (loans.map (·.loanId)) (p.userLoanPage borrower))
    (hfew : loans.length < 2 ^ 37) (hread : ∀ loan ∈ loans, readLoan p loan.loanId = .ok loan)
    (hfuel : limit < fuel) :
    getUserLoans p borrower start limit fuel = some (.ok ((loans.drop start).take limit)) := by
  have hlen : (loans.map (·.loanId)).length = loans.length := List.length_map _
  rw [getUserLoans, getUserLoansPaginated,
    getUserLoanIdsPaginated_ok (hcount.trans hlen.symm) hpages (hlen ▸ hfew) hfuel,
    Option.map_some, ok_bind, ← List.map_drop, ← List.map_take, mapM_readLoan]
  intro loan hloan
  exact hread loan (List.mem_of_mem_drop (List.mem_of_mem_take hloan))

theorem readInTurn_eq {loans : List Loan} {fuel : Nat} {sizes : List Nat}
    (h : ∀ start limit, limit < fuel →
      getUserLoans p borrower start limit fuel = some (.ok ((loans.drop start).take limit)))
    (hsizes : ∀ size ∈ sizes, size < fuel) (start : Nat) :
    readInTurn p borrower fuel start sizes =
      (slices loans start sizes).map fun page => some (.ok page) := by
  induction sizes generalizing start with
  | nil => rfl
  | cons size sizes ih =>
    rw [readInTurn, slices, List.map_cons, h start size (hsizes size List.mem_cons_self),
      ih fun x hx => hsizes x (List.mem_cons_of_mem _ hx)]

/-- The records of ids that are stored. -/
theorem records_of_ids {b : Book} (ids : List Nat)
    (hkeyed : ∀ id loan, b.loan id = some loan → loan.loanId = id)
    (h : ∀ id ∈ ids, ∃ loan, b.loan id = some loan) :
    ∃ loans : List Loan, loans.map (·.loanId) = ids ∧
      ∀ loan ∈ loans, b.loan loan.loanId = some loan := by
  induction ids with
  | nil => exact ⟨[], rfl, by simp⟩
  | cons id ids ih =>
    obtain ⟨loan, hloan⟩ := h id List.mem_cons_self
    obtain ⟨loans, hmap, hall⟩ := ih fun x hx => h x (List.mem_cons_of_mem _ hx)
    have hid := hkeyed id loan hloan
    refine ⟨loan :: loans, by rw [List.map_cons, hmap, hid], ?_⟩
    rw [List.forall_mem_cons, hid]
    exact ⟨hloan, hall⟩

/-- A borrower's records, in the order of their ids. -/
theorem Shelved.records (hs : Shelved tr s) (borrower : Address) :
    ∃ loans : List Loan, loans.map (·.loanId) = created borrower tr ∧
      ∀ loan, loan ∈ loans ↔
        readLoan s.line loan.loanId = .ok loan ∧ loan.borrower = borrower := by
  obtain ⟨loans, hmap, hrecords⟩ := records_of_ids (created borrower tr) hs.book.keyed
    fun id hid => ((hs.catalogue.mem borrower id).mp hid).imp fun _ hloan => hloan.1
  refine ⟨loans, hmap, ?_⟩
  intro loan
  rw [readLoan_ok]
  constructor
  · intro hloan
    have hid : loan.loanId ∈ created borrower tr := hmap ▸ List.mem_map_of_mem hloan
    obtain ⟨found, hfound, hborrower⟩ := (hs.catalogue.mem borrower _).mp hid
    rw [hrecords loan hloan, Option.some.injEq] at hfound
    exact ⟨hrecords loan hloan, hfound ▸ hborrower⟩
  · intro ⟨hloan, hborrower⟩
    have hmem := (hs.catalogue.mem borrower loan.loanId).mpr ⟨loan, hloan, hborrower⟩
    rw [← hmap, List.mem_map] at hmem
    obtain ⟨x, hx, hid⟩ := hmem
    have hsame := hrecords x hx
    rw [hid, hloan, Option.some.injEq] at hsame
    exact hsame ▸ hx

section Few

variable (hs : Shelved tr s) (hfew : ∀ borrower, getUserLoanCount s.line borrower < 2 ^ 37)

include hs hfew

theorem Shelved.pages (borrower : Address) :
    Paged pageSize (created borrower tr) (s.line.userLoanPage borrower) := by
  have hcount : getUserLoanCount s.line borrower = (created borrower tr).length :=
    hs.index.count borrower
  have hlen := hfew borrower
  exact hs.index.pages borrower (by omega)

/-- Only a borrower's own ids are in the pages of its index. -/
theorem Shelved.indexed_mem (k i : Nat) (h : s.line.indexed borrower k i = some id) :
    id ∈ created borrower tr := by
  rw [Storage.indexed, (hs.pages hfew borrower).slot] at h
  split at h
  · exact List.mem_of_getElem? h
  · cases h

/-- Every loan's id has one slot, in its borrower's index. -/
theorem Shelved.slot (h : s.line.book.loan id = some loan) :
    ∃ k i, s.line.indexed loan.borrower k i = some id ∧
      ∀ borrower k' i', s.line.indexed borrower k' i' = some id →
        borrower = loan.borrower ∧ k' = k ∧ i' = i := by
  have hmem := (hs.catalogue.mem loan.borrower id).mpr ⟨loan, h, rfl⟩
  obtain ⟨k, i, hslot, hunique⟩ := (hs.pages hfew loan.borrower).slot_unique (by decide)
    (hs.catalogue.nodup loan.borrower) hmem
  refine ⟨k, i, hslot, ?_⟩
  intro borrower k' i' hslot'
  obtain ⟨found, hfound, hborrower⟩ :=
    (hs.catalogue.mem borrower id).mp (hs.indexed_mem hfew k' i' hslot')
  rw [h, Option.some.injEq] at hfound
  subst hfound hborrower
  exact ⟨rfl, hunique k' i' hslot'⟩

end Few

/-- The records and the index of any run with fewer than `2 ^ 37` loans to each
borrower. The ids are `1..counter`, each record is under its own id in its own
shard, each id has exactly one slot in the index, in its borrower's, and
`get_user_loans` returns the borrower's records from `start` on, at most `limit`,
in the order they were created; it ends within `limit` rounds and never fails.
Reads of any sizes that cover the count yield every loan once. -/
theorem userLoans_exact {s₀ : State W} (h : Run (Step c) s₀ tr s) (h0 : Deployed s₀)
    (hfew : ∀ borrower, getUserLoanCount s.line borrower < 2 ^ 37) :
    (∀ shard id loan, s.line.loans shard id = some loan →
      shard = loanShard id ∧ loan.loanId = id ∧ id ∈ Finset.Icc 1 s.line.loanCounter) ∧
    (∀ id ∈ Finset.Icc 1 s.line.loanCounter, ∃ loan, readLoan s.line id = .ok loan ∧
      ∃ k i, s.line.indexed loan.borrower k i = some id ∧
        ∀ borrower k' i', s.line.indexed borrower k' i' = some id →
          borrower = loan.borrower ∧ k' = k ∧ i' = i) ∧
    (∀ borrower k i id, s.line.indexed borrower k i = some id →
      id ∈ Finset.Icc 1 s.line.loanCounter) ∧
    ∀ borrower, ∃ loans : List Loan, loans.map (·.loanId) = created borrower tr ∧
      (∀ loan, loan ∈ loans ↔
        readLoan s.line loan.loanId = .ok loan ∧ loan.borrower = borrower) ∧
      loans.length = getUserLoanCount s.line borrower ∧
      (∀ start limit fuel, limit < fuel → getUserLoans s.line borrower start limit fuel =
        some (.ok ((loans.drop start).take limit))) ∧
      ∀ sizes fuel, loans.length ≤ sizes.sum → (∀ size ∈ sizes, size < fuel) →
        ∃ pages : List (List Loan), readInTurn s.line borrower fuel 0 sizes =
          pages.map (fun page => some (.ok page)) ∧ pages.flatten = loans := by
  have hs := Run.shelved h h0
  refine ⟨?_, ?_, ?_, ?_⟩
  · intro shard id loan hloan
    obtain rfl := hs.sharded shard id loan hloan
    exact ⟨rfl, hs.book.keyed id loan hloan, hs.book.filled id loan hloan⟩
  · intro id hid
    obtain ⟨loan, hloan⟩ := hs.catalogue.dense id hid
    exact ⟨loan, readLoan_ok.mpr hloan, hs.slot hfew hloan⟩
  · intro borrower k i id hslot
    have hmem := hs.indexed_mem hfew k i hslot
    obtain ⟨loan, hloan, -⟩ := (hs.catalogue.mem borrower id).mp hmem
    exact hs.book.filled id loan hloan
  · intro borrower
    obtain ⟨loans, hmap, hmember⟩ := hs.records borrower
    have hcount : getUserLoanCount s.line borrower = loans.length := by
      rw [← List.length_map (f := (·.loanId)), hmap]
      exact hs.index.count borrower
    have hreads : ∀ start limit fuel, limit < fuel →
        getUserLoans s.line borrower start limit fuel =
          some (.ok ((loans.drop start).take limit)) := by
      intro start limit fuel hfuel
      refine getUserLoans_ok hcount (hmap ▸ hs.pages hfew borrower) (hcount ▸ hfew borrower) ?_
        hfuel
      intro loan hloan
      exact ((hmember loan).mp hloan).1
    refine ⟨loans, hmap, hmember, hcount.symm, hreads, ?_⟩
    intro sizes fuel hcover hsizes
    refine ⟨slices loans 0 sizes, readInTurn_eq (hreads · · fuel) hsizes 0, ?_⟩
    rw [slices_flatten, List.drop_zero, List.take_of_length_le hcover]

theorem count_le_length {s₀ : State W} (h : Run (Step c) s₀ tr s) (h0 : Deployed s₀)
    (borrower : Address) : getUserLoanCount s.line borrower ≤ tr.length := by
  have hcount : getUserLoanCount s.line borrower = (created borrower tr).length :=
    (Run.shelved h h0).index.count borrower
  rw [hcount]
  exact List.length_filterMap_le ..

/-- Borrower `21` takes loans `1` and `3`, and `22` asks for loan `2` in between. -/
theorem userLoans_exact_sample : ∃ (s : State Unit) (loans : List Loan),
    loans.map (·.loanId) = [1, 3] ∧
    getUserLoans s.line 21 0 10 11 = some (.ok loans) ∧
    getUserLoans s.line 21 1 1 2 = some (.ok (loans.drop 1)) := by
  let schedule : List RepaymentInstallment := [⟨2000, 1070, false, 0⟩]
  have hrun : (replay (take .granting) sampleStart [
      .call (Env.signedBy [10] 50) (.initializeContract 10 3 4 2 6),
      .call (Env.signedBy [21] 100) (.createLoan ⟨21, 30, 1000, 200, schedule, .standard⟩),
      .call (Env.signedBy [22] 110) (.requestLoan ⟨22, 30, 1000, 200, schedule, .standard⟩),
      .call (Env.signedBy [21] 120) (.createLoan ⟨21, 30, 1000, 200, schedule, .standard⟩)
    ]).toOption.map (fun r => (r.1.length, created 21 r.1)) = some (4, [1, 3]) := by
    decide +kernel
  obtain ⟨tr, s, hr, hs⟩ := replay_observed hrun
  obtain ⟨hlength, hcreated⟩ := Prod.mk.injEq .. ▸ hs
  have hrun' : Run (Step .granting) sampleStart tr s := Run.of_replay (fun _ _ _ _ h => h) hr
  have hfew : ∀ borrower, getUserLoanCount s.line borrower < 2 ^ 37 := by
    intro borrower
    have hle := count_le_length hrun' rfl borrower
    dsimp only at hlength
    omega
  obtain ⟨loans, hids, -, -, hreads, -⟩ := (userLoans_exact hrun' rfl hfew).2.2.2 21
  have hmap : loans.map (·.loanId) = [1, 3] := hids.trans hcreated
  have hlen : loans.length = 2 := by
    rw [← List.length_map (f := (·.loanId)), hmap]
    rfl
  refine ⟨s, loans, hmap, ?_, ?_⟩
  · rw [hreads 0 10 11 (by decide), List.drop_zero, List.take_of_length_le (by omega)]
  · rw [hreads 1 1 2 (by decide), List.take_of_length_le]
    rw [List.length_drop]
    omega

end StepFi.CreditLine
