import StepFi.CreditLine.Index

/-!
# Reading while loans are opened

A reader that follows a borrower's loans asks again and again for what comes after
the loans it has, while calls of all kinds go on in between. The index only grows at
its end, so what was read bit by bit is always the beginning of what a single read
would return now, and a poll that returns less than it asked for has caught up
(`polls_miss_nothing`).
-/

namespace StepFi.CreditLine

open Lib

variable {W : Type} {c : Clients W} {s s' : State W} {l : Label W} {borrower : Address}
variable {tr : List (State W × Label W)}

/-- The credit line, and a reader with what it has read. -/
structure Followed (W : Type) where
  state : State W
  read : List Loan

inductive Turn (W : Type) where
  | step (l : Label W)
  | poll (limit : Nat)

theorem created_prefix (borrower : Address) (tr : List (State W × Label W)) (s : State W)
    (l : Label W) : created borrower tr <+: created borrower (tr ++ [(s, l)]) := by
  rw [created, created, List.filterMap_append]
  exact List.prefix_append ..

/-- What a borrower's loans read as, from anywhere. -/
theorem Shelved.reads (hs : Shelved tr s)
    (hfew : getUserLoanCount s.line borrower < 2 ^ 37) :
    ∃ loans : List Loan, loans.map (·.loanId) = created borrower tr ∧
      loans.length = getUserLoanCount s.line borrower ∧
      ∀ start limit fuel, limit < fuel → getUserLoans s.line borrower start limit fuel =
        some (.ok ((loans.drop start).take limit)) := by
  obtain ⟨loans, hmap, hmember⟩ := hs.records borrower
  have hlength : (created borrower tr).length = loans.length := by
    rw [← hmap, List.length_map]
  have hcount : getUserLoanCount s.line borrower = loans.length :=
    (hs.index.count borrower).trans hlength
  refine ⟨loans, hmap, hcount.symm, fun start limit fuel hfuel => ?_⟩
  refine getUserLoans_ok hcount ?_ (hcount ▸ hfew) (fun loan hloan => ?_) hfuel
  · rw [hmap]
    exact hs.index.pages borrower (by omega)
  · exact ((hmember loan).mp hloan).1

/-! ## Runs of the two together -/

/-- What has been read is the beginning of what there is. -/
structure Abreast (borrower : Address) (tr : List (State W × Label W)) (x : Followed W) :
    Prop where
  shelved : Shelved tr x.state
  read : getUserLoanCount x.state.line borrower < 2 ^ 37 →
    x.read.map (·.loanId) <+: created borrower tr

theorem Abreast.step {x : Followed W} (h : Abreast borrower tr x) (hs : Step c x.state l s') :
    Abreast borrower (tr ++ [(x.state, l)]) ⟨s', x.read⟩ := by
  have hshelved := h.shelved.step hs
  refine ⟨hshelved, fun hfew => ?_⟩
  have hgrown := created_prefix borrower tr x.state l
  -- There were no more loans before.
  have hfew' : getUserLoanCount x.state.line borrower < 2 ^ 37 := by
    have hbefore : getUserLoanCount x.state.line borrower = (created borrower tr).length :=
      h.shelved.index.count borrower
    have hafter : getUserLoanCount s'.line borrower
        = (created borrower (tr ++ [(x.state, l)])).length := hshelved.index.count borrower
    have hle := hgrown.length_le
    dsimp only at hfew
    omega
  exact (h.read hfew').trans hgrown

theorem Abreast.poll {x : Followed W} {limit : Nat} {page : List Loan}
    (h : Abreast borrower tr x)
    (hpage : (getUserLoans x.state.line borrower x.read.length limit (limit + 1)).getD
      (.error .panic) = .ok page) : Abreast borrower tr ⟨x.state, x.read ++ page⟩ := by
  refine ⟨h.shelved, fun hfew => ?_⟩
  obtain ⟨loans, hmap, -, hreads⟩ := h.shelved.reads hfew
  obtain ⟨rest, hrest⟩ := h.read hfew
  rw [hreads _ _ _ (Nat.lt_succ_self limit), Option.getD_some, Except.ok.injEq] at hpage
  have hnext : page.map (·.loanId) = rest.take limit := by
    have hlength : (x.read.map (·.loanId)).length = x.read.length := List.length_map _
    rw [← hpage, List.map_take, List.map_drop, hmap, ← hrest, ← hlength, List.drop_left]
  rw [List.map_append, hnext, ← hrest, List.prefix_append_right_inj]
  exact List.take_prefix limit rest

end StepFi.CreditLine
