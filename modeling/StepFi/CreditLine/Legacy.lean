import StepFi.CreditLine.Index
import StepFi.CreditLine.Waterfall

/-!
# Indexes from before the pages

A borrower's first ids can be in the legacy index, one entry a position, and the
later ones on pages. The writer files a new id on the page of its position, at the
end; the reader looks for it there at the offset of its position, and takes a legacy
entry only where the page is missing. The two agree when the pages begin where
the legacy entries end, and not when the first page also covers legacy positions
(`legacy_reads_iff`).
-/

namespace StepFi.CreditLine

open Lib

variable {p p' : Storage} {borrower : Address} {loan : Loan} {old new ids : List Nat}

/-! ## New ids after legacy ones -/

/-- The index of a borrower as the old scheme left it: its `ids`, one at a position,
in persistent or in instance storage, their number, and no page. An id was indexed
when its record was written. -/
structure Legacy (p : Storage) (borrower : Address) (ids : List Nat) : Prop where
  one_le : 1 ≤ ids.length
  fits : ids.length < 2 ^ 64
  count : p.userLoanCount borrower = ids.length
  entries : ∀ i < ids.length,
    (p.userLoanAt borrower i).or (p.userLoanAtInstance borrower i) = ids[i]?
  pages : ∀ k, p.userLoanPage borrower k = none
  records : ∀ id ∈ ids, ∃ loan, p.book.loan id = some loan

def Writes (p : Storage) (loan : Loan) (p' : Storage) : Prop := writeLoan loan p = .ok p'

/-- The ids that a run of writes adds to the borrower's index: a loan is new when its
record is not stored yet. -/
def added (borrower : Address) (tr : List (Storage × Loan)) : List Nat :=
  tr.filterMap fun x =>
    if (x.1.book.loan x.2.loanId).isNone ∧ x.2.borrower = borrower then some x.2.loanId else none

/-- The legacy entries are as they were, and each page holds the new ids whose
positions have its number. -/
structure Migrated (p : Storage) (borrower : Address) (old new : List Nat) : Prop where
  fits : old.length + new.length < 2 ^ 64
  count : p.userLoanCount borrower = old.length + new.length
  entries : ∀ i < old.length,
    (p.userLoanAt borrower i).or (p.userLoanAtInstance borrower i) = old[i]?
  pages : ∀ k, p.userLoanPage borrower k =
    let page := filedUnder pageNumber k old.length new
    if page = [] then none else some page
  records : ∀ id ∈ old ++ new, ∃ loan, p.book.loan id = some loan
  nodup : new.Nodup
  fresh : ∀ id ∈ new, id ∉ old

theorem Legacy.migrated (h : Legacy p borrower old) : Migrated p borrower old [] where
  fits := h.fits
  count := h.count
  entries := h.entries
  pages := h.pages
  records := by simpa using h.records
  nodup := List.nodup_nil
  fresh := by simp

theorem Writes.book (h : Writes p loan p') :
    p'.book.loan = Function.update p.book.loan loan.loanId (some loan) := by
  obtain ⟨pages, counts, rfl⟩ := writeLoan_spec h
  exact congrArg Book.loan (book_setLoan loan p)

/-- The legacy entries are never written. -/
theorem Writes.entries (h : Writes p loan p') :
    p'.userLoanAt = p.userLoanAt ∧ p'.userLoanAtInstance = p.userLoanAtInstance := by
  obtain ⟨pages, counts, rfl⟩ := writeLoan_spec h
  exact ⟨rfl, rfl⟩

theorem Writes.records (hw : Writes p loan p')
    (h : ∀ id ∈ ids, ∃ loan, p.book.loan id = some loan) :
    ∀ id ∈ ids, ∃ loan, p'.book.loan id = some loan := by
  intro id hid
  rw [hw.book]
  by_cases hkey : id = loan.loanId
  · exact ⟨loan, by rw [hkey, Function.update_self]⟩
  · rw [Function.update_of_ne hkey]
    exact h id hid

theorem writeLoan_counted (h : writeLoan loan p = .ok p')
    (hnone : p.book.loan loan.loanId = none) : p.userLoanCount loan.borrower + 1 < 2 ^ 64 := by
  have hnone' : p.loans (loanShard loan.loanId) loan.loanId = none := hnone
  simp only [writeLoan, hnone', Option.isNone_none, if_true, appendUserLoanIndex, bind_ok,
    pure_ok, checkedU64_ok] at h
  obtain ⟨next, ⟨hlt, -⟩, -⟩ := h
  have hlt' : (p.userLoanCount loan.borrower : Int) + 1 < 2 ^ 64 := hlt
  omega

/-- A new id of the borrower is filed on the page of the next position. -/
theorem Migrated.push (h : Migrated p borrower old new) (hw : Writes p loan p')
    (hnone : p.book.loan loan.loanId = none) (hborrower : loan.borrower = borrower) :
    Migrated p' borrower old (new ++ [loan.loanId]) := by
  subst hborrower
  have hindex := writeLoan_fresh hw hnone
  have hcount : p'.userLoanCount loan.borrower = p.userLoanCount loan.borrower + 1 :=
    (congrFun (congrArg Index.count hindex) _).trans (Function.update_self ..)
  have hpage : p'.userLoanPage loan.borrower =
      Function.update (p.userLoanPage loan.borrower) (pageNumber (p.userLoanCount loan.borrower))
        (some ((p.userLoanPage loan.borrower (pageNumber (p.userLoanCount loan.borrower))).getD []
          ++ [loan.loanId])) :=
    (congrFun (congrArg Index.page hindex) _).trans (Function.update_self ..)
  have hbound := writeLoan_counted hw hnone
  have hnext : p.userLoanCount loan.borrower = old.length + new.length := h.count
  have hunindexed : loan.loanId ∉ old ++ new := by
    intro hmem
    obtain ⟨stored, hstored⟩ := h.records _ hmem
    rw [hnone] at hstored
    cases hstored
  rw [List.mem_append, not_or] at hunindexed
  refine ⟨?_, ?_, ?_, ?_, ?_, ?_, ?_⟩
  · rw [List.length_append, List.length_singleton]
    omega
  · rw [hcount, hnext, List.length_append, List.length_singleton]
    omega
  · rw [hw.entries.1, hw.entries.2]
    exact h.entries
  · intro k
    rw [hpage, hnext, h.pages (pageNumber (old.length + new.length)), filedUnder_push]
    by_cases hk : pageNumber (old.length + new.length) = k
    · subst hk
      rw [Function.update_self, if_pos rfl]
      dsimp only
      split
      · rename_i hempty
        simp [hempty]
      · simp
    · rw [Function.update_of_ne (fun e => hk e.symm), if_neg hk, List.append_nil]
      exact h.pages k
  · intro id hid
    rw [← List.append_assoc] at hid
    rcases List.mem_append.mp hid with hmem | hlast
    · exact hw.records h.records id hmem
    · obtain rfl := List.mem_singleton.mp hlast
      exact ⟨loan, by rw [hw.book, Function.update_self]⟩
  · rw [List.nodup_append]
    refine ⟨h.nodup, List.nodup_singleton _, ?_⟩
    intro a ha b hb heq
    obtain rfl := List.mem_singleton.mp hb
    exact hunindexed.2 (heq ▸ ha)
  · intro id hid
    rcases List.mem_append.mp hid with hnew | hlast
    · exact h.fresh id hnew
    · obtain rfl := List.mem_singleton.mp hlast
      exact hunindexed.1

/-- Other writes leave the borrower's index alone. -/
theorem Migrated.frame (h : Migrated p borrower old new) (hw : Writes p loan p')
    (hcount : p'.userLoanCount borrower = p.userLoanCount borrower)
    (hpage : p'.userLoanPage borrower = p.userLoanPage borrower) :
    Migrated p' borrower old new := by
  refine ⟨h.fits, hcount.trans h.count, ?_, ?_, hw.records h.records, h.nodup, h.fresh⟩
  · rw [hw.entries.1, hw.entries.2]
    exact h.entries
  · intro k
    rw [hpage]
    exact h.pages k

theorem Migrated.write (h : Migrated p borrower old new) (hw : Writes p loan p') :
    Migrated p' borrower old (new ++ added borrower [(p, loan)]) := by
  cases hloan : p.book.loan loan.loanId with
  | some stored =>
    obtain rfl := Except.ok.inj ((writeLoan_stored hloan).symm.trans hw)
    simpa [added, hloan] using h.frame hw rfl rfl
  | none =>
    by_cases hborrower : loan.borrower = borrower
    · simpa [added, hloan, hborrower] using h.push hw hloan hborrower
    · have hindex := writeLoan_fresh hw hloan
      have hne : borrower ≠ loan.borrower := fun e => hborrower e.symm
      have hcount : p'.userLoanCount borrower = p.userLoanCount borrower :=
        (congrFun (congrArg Index.count hindex) borrower).trans (Function.update_of_ne hne ..)
      have hpage : p'.userLoanPage borrower = p.userLoanPage borrower :=
        (congrFun (congrArg Index.page hindex) borrower).trans (Function.update_of_ne hne ..)
      simpa [added, hborrower] using h.frame hw hcount hpage

theorem Legacy.run {p₀ : Storage} {tr : List (Storage × Loan)} (h : Legacy p₀ borrower old)
    (hrun : Run Writes p₀ tr p) : Migrated p borrower old (added borrower tr) := by
  induction hrun with
  | nil => exact h.migrated
  | @snoc tr q p loan _ hw ih =>
    rw [added, List.filterMap_append]
    exact ih.write hw

/-! ## What the positions hold -/

/-- A legacy position is read right as long as no new id is on its page. -/
theorem Migrated.slot_old (h : Migrated p borrower old new) {i : Nat} (hi : i < old.length) :
    p.slotAt borrower i = (old ++ new)[i]? ↔
      ∀ j, old.length ≤ j → j < old.length + new.length → pageNumber j ≠ pageNumber i := by
  rw [List.getElem?_append_left hi, Storage.slotAt, h.pages]
  dsimp only
  by_cases hempty : filedUnder pageNumber (pageNumber i) old.length new = []
  · rw [if_pos hempty]
    refine iff_of_true (h.entries i hi) ?_
    intro j hold hj hpage
    have hget : new[j - old.length]? = some new[j - old.length] := List.getElem?_eq_getElem _
    have hmem : new[j - old.length] ∈ filedUnder pageNumber (pageNumber i) old.length new := by
      refine mem_filedUnder.mpr ⟨_, hget, ?_⟩
      rwa [Nat.add_sub_cancel' hold]
    rw [hempty] at hmem
    cases hmem
  · rw [if_neg hempty]
    refine iff_of_false ?_ ?_
    · -- The page has new ids only, and the entry is a legacy one.
      intro hslot
      rw [List.getElem?_eq_getElem hi] at hslot
      obtain ⟨q, hq, -⟩ := mem_filedUnder.mp (List.mem_of_getElem? hslot)
      exact h.fresh _ (List.mem_of_getElem? hq) (List.getElem_mem hi)
    · intro hnone
      obtain ⟨id, hid⟩ := List.exists_mem_of_ne_nil _ hempty
      obtain ⟨q, hq, hpage⟩ := mem_filedUnder.mp hid
      have hlt := (List.getElem?_eq_some_iff.mp hq).1
      exact hnone _ (Nat.le_add_right ..) (by omega) hpage

theorem rank_pageNumber {k base i : Nat} (h : base + i ≤ 2 ^ 37) :
    rank pageNumber k base i = rank (· / pageSize) k base i := by
  refine List.countP_congr fun j hj => ?_
  have hlt := (List.mem_range'_1.mp hj).2
  rw [pageNumber_eq (by omega)]

/-- A new position is read right unless its page begins among the legacy ones. -/
theorem Migrated.slot_new (h : Migrated p borrower old new)
    (hlen : old.length + new.length ≤ 2 ^ 37) {i : Nat} (hold : old.length ≤ i)
    (hi : i < old.length + new.length) :
    p.slotAt borrower i = (old ++ new)[i]? ↔
      old.length % pageSize = 0 ∨ i / pageSize ≠ old.length / pageSize := by
  have hk : i - old.length < new.length := by omega
  have hget : new[i - old.length]? = some new[i - old.length] := List.getElem?_eq_getElem hk
  have hat : old.length + (i - old.length) = i := Nat.add_sub_cancel' hold
  have hmem : new[i - old.length] ∈ filedUnder pageNumber (pageNumber i) old.length new :=
    mem_filedUnder.mpr ⟨_, hget, by rw [hat]⟩
  rw [List.getElem?_append_right hold, hget, Storage.slotAt, h.pages]
  dsimp only
  rw [if_neg (List.ne_nil_of_mem hmem)]
  show (filedUnder pageNumber (pageNumber i) old.length new)[i % pageSize]? = _ ↔ _
  -- The id is on the page once, after the new ids that came before it.
  have hplace : (filedUnder pageNumber (pageNumber i) old.length new)[i % pageSize]? =
        some new[i - old.length] ↔
      rank pageNumber (pageNumber i) old.length (i - old.length) = i % pageSize := by
    rw [filedUnder_getElem?]
    constructor
    · rintro ⟨q, hq, -, hrank⟩
      obtain ⟨hlt, hsame⟩ := List.getElem?_eq_some_iff.mp hq
      obtain rfl : q = i - old.length := h.nodup.getElem_inj_iff.mp hsame
      exact hrank
    · intro hrank
      exact ⟨_, hget, by rw [hat], hrank⟩
  rw [hplace, rank_pageNumber (by omega), pageNumber_eq (by omega),
    rank_div (by decide), hat]
  simp only [pageSize]
  omega

/-- Which positions are read right. -/
theorem Migrated.slot_iff (h : Migrated p borrower old new)
    (hlen : old.length + new.length ≤ 2 ^ 37) {i : Nat} (hi : i < old.length + new.length) :
    p.slotAt borrower i = (old ++ new)[i]? ↔ new = [] ∨ old.length % pageSize = 0 ∨
      i / pageSize ≠ old.length / pageSize := by
  rcases Nat.lt_or_ge i old.length with hlt | hge
  · rw [h.slot_old hlt]
    constructor
    · intro hpages
      rcases List.eq_nil_or_concat new with hnil | ⟨rest, last, hnew⟩
      · exact .inl hnil
      · have hpos : 0 < new.length := by simp [hnew]
        have hpage := hpages old.length (Nat.le_refl _) (by omega)
        rw [pageNumber_eq (by omega), pageNumber_eq (by omega)] at hpage
        exact .inr (.inr hpage.symm)
    · intro hgood j hold hj
      have hpos : new ≠ [] := by
        rintro rfl
        exact absurd hj (Nat.not_lt.mpr hold)
      have hgood' := hgood.resolve_left hpos
      rw [pageNumber_eq (by omega), pageNumber_eq (by omega)]
      simp only [pageSize] at *
      omega
  · rw [h.slot_new hlen hge hi]
    have hpos : new ≠ [] := by
      rintro rfl
      exact absurd hi (Nat.not_lt.mpr hge)
    simp only [hpos, false_or]

/-! ## Reads -/

/-- With 32-bit page numbers to spare, no page has more entries than positions. -/
theorem Migrated.page_length (h : Migrated p borrower old new)
    (hlen : old.length + new.length ≤ 2 ^ 37) {k : Nat} {page : List Nat}
    (hpage : p.userLoanPage borrower k = some page) : page.length ≤ pageSize := by
  rw [h.pages] at hpage
  dsimp only at hpage
  split at hpage
  · cases hpage
  · obtain rfl := Option.some.inj hpage
    rw [filedUnder_length, rank_pageNumber hlen, rank_div (by decide), Nat.succ_mul]
    omega

/-- A slice is read right when each of its positions is. -/
theorem Migrated.reads_iff_slots (h : Migrated p borrower old new)
    (hlen : new = [] ∨ old.length + new.length ≤ 2 ^ 37) {start limit : Nat} :
    p.Reads borrower (old ++ new) start limit ↔ ∀ i, start ≤ i → i < start + limit →
      i < (old ++ new).length → p.slotAt borrower i = (old ++ new)[i]? := by
  have hall : (old ++ new).length = old.length + new.length := List.length_append
  refine StepFi.CreditLine.reads_iff_slots (hall ▸ h.count) (hall ▸ h.fits) ?_
  intro i page _ _ hpage
  rcases hlen with rfl | hlen
  · rw [h.pages] at hpage
    cases hpage
  · exact .inl (h.page_length hlen hpage)

/-- One position, whatever the length of its page. -/
theorem Migrated.read_one (h : Migrated p borrower old new) {i : Nat} (hi : i < old.length)
    (hread : p.Reads borrower (old ++ new) i 1) :
    ∀ j, old.length ≤ j → j < old.length + new.length → pageNumber j ≠ pageNumber i := by
  have hall : (old ++ new).length = old.length + new.length := List.length_append
  have hwithin : p.Within borrower i (min (i + 1) (old ++ new).length) := by
    intro j page hij hj _
    obtain rfl : j = i := by omega
    have hdiv := Nat.div_add_mod j pageSize
    have hmod := Nat.mod_lt j (show 0 < pageSize by decide)
    simp only [pageSize] at *
    omega
  have hslots :=
    (StepFi.CreditLine.reads_iff_slots (hall ▸ h.count) (hall ▸ h.fits) hwithin).mp hread
  exact (h.slot_old hi).mp (hslots i (Nat.le_refl i) (Nat.lt_succ_self i) (by omega))

/-- Reads of a borrower whose index was begun before the pages. With at most `2 ^ 37`
ids a read is right exactly when nothing was added, when the pages begin where a
page of positions does, or when no position read lies on the page where the legacy
ids end; all reads are right exactly in the first two cases, the second with at
most `2 ^ 37` ids. -/
theorem legacy_reads_iff {p₀ : Storage} {tr : List (Storage × Loan)} (h : Legacy p₀ borrower old)
    (hrun : Run Writes p₀ tr p) :
    ((old ++ added borrower tr).length ≤ 2 ^ 37 → ∀ start limit,
      (p.Reads borrower (old ++ added borrower tr) start limit ↔
        added borrower tr = [] ∨ old.length % pageSize = 0 ∨
          ∀ i, start ≤ i → i < start + limit → i < (old ++ added borrower tr).length →
            i / pageSize ≠ old.length / pageSize)) ∧
    ((∀ start limit, p.Reads borrower (old ++ added borrower tr) start limit) ↔
      added borrower tr = [] ∨
        old.length % pageSize = 0 ∧ (old ++ added borrower tr).length ≤ 2 ^ 37) := by
  have hm := h.run hrun
  have hall : (old ++ added borrower tr).length = old.length + (added borrower tr).length :=
    List.length_append
  generalize added borrower tr = new at hm hall ⊢
  have hslice : (old ++ new).length ≤ 2 ^ 37 → ∀ start limit,
      (p.Reads borrower (old ++ new) start limit ↔ new = [] ∨ old.length % pageSize = 0 ∨
        ∀ i, start ≤ i → i < start + limit → i < (old ++ new).length →
          i / pageSize ≠ old.length / pageSize) := by
    intro hlen start limit
    rw [hm.reads_iff_slots (.inr (hall ▸ hlen))]
    constructor
    · intro hslots
      by_cases hnew : new = []
      · exact .inl hnew
      · by_cases hmod : old.length % pageSize = 0
        · exact .inr (.inl hmod)
        · refine .inr (.inr fun i hstart hlimit hi => ?_)
          have hgood := (hm.slot_iff (hall ▸ hlen) (hall ▸ hi)).mp (hslots i hstart hlimit hi)
          exact (hgood.resolve_left hnew).resolve_left hmod
    · intro hgood i hstart hlimit hi
      refine (hm.slot_iff (hall ▸ hlen) (hall ▸ hi)).mpr ?_
      exact hgood.imp_right fun h => h.imp_right fun h => h i hstart hlimit hi
  refine ⟨hslice, ?_, ?_⟩
  · intro hreads
    by_cases hnew : new = []
    · exact .inl hnew
    · have hpos : 0 < new.length := List.length_pos_iff.mpr hnew
      have hone := h.one_le
      have hpages := fun i hi => hm.read_one (i := i) hi (hreads i 1)
      -- The first new id is on the page that begins at this position.
      have hfirst : ¬old.length / pageSize % 2 ^ 32 * pageSize < old.length := by
        intro hlt
        refine hpages _ hlt old.length (Nat.le_refl _) (by omega) ?_
        simp only [pageNumber, pageSize]
        omega
      -- Past the last page number the ids go to page `0`, which legacy ids have.
      have hwrap : ¬2 ^ 37 < (old ++ new).length := by
        intro hlt
        refine hpages 0 hone (2 ^ 37) ?_ (hall ▸ hlt) (by decide)
        simp only [pageSize] at hfirst
        omega
      refine .inr ⟨?_, Nat.not_lt.mp hwrap⟩
      simp only [pageSize] at hfirst ⊢
      omega
  · rintro (rfl | ⟨hmod, hlen⟩) start limit
    · rw [hm.reads_iff_slots (.inl rfl)]
      intro i _ _ hi
      rw [List.append_nil] at hi
      exact (hm.slot_old hi).mpr fun j hold hj => absurd hj (Nat.not_lt.mpr hold)
    · exact (hslice hlen start limit).mpr (.inr (.inl hmod))

def sampleRecord (id : Nat) : Loan := { sampleOwing with loanId := id }

/-- Borrower `21` with the legacy index `ids`. -/
def migrating (ids : List Nat) : Storage := { Storage.empty with
  loans := fun shard id =>
    if shard = loanShard id ∧ id ∈ ids then some (sampleRecord id) else none
  userLoanCount := fun b => if b = 21 then ids.length else 0
  userLoanAt := fun b i => if b = 21 then ids[i]? else none }

theorem migrating_legacy (h : 1 ≤ ids.length) (hfits : ids.length < 2 ^ 64) :
    Legacy (migrating ids) 21 ids where
  one_le := h
  fits := hfits
  count := rfl
  entries := by
    intro i _
    show (if (21 : Nat) = 21 then ids[i]? else none).or none = ids[i]?
    rw [if_pos rfl, Option.or_none]
  pages := fun _ => rfl
  records := by
    intro id hid
    exact ⟨sampleRecord id, if_pos ⟨rfl, hid⟩⟩

/-- A full page of `32` legacy ids, and one more loan. -/
theorem legacy_reads_iff_sample : ∃ p, Writes (migrating (List.range' 1 32)) (sampleRecord 33) p ∧
    ∀ start limit, p.Reads 21 (List.range' 1 33) start limit := by
  have hwrite : (writeLoan (sampleRecord 33) (migrating (List.range' 1 32))).toOption.map
      (fun _ => ()) = some () := by decide +kernel
  obtain ⟨p, hp, -⟩ := toOption_map_some.mp hwrite
  have hrun : Run Writes (migrating (List.range' 1 32))
      ([] ++ [(migrating (List.range' 1 32), sampleRecord 33)]) p := Run.nil.snoc hp
  have hadded : added 21 ([] ++ [(migrating (List.range' 1 32), sampleRecord 33)]) = [33] := by
    decide +kernel
  have hlegacy : Legacy (migrating (List.range' 1 32)) 21 (List.range' 1 32) :=
    migrating_legacy (by decide) (by decide)
  have hreads := (legacy_reads_iff hlegacy hrun).2.mpr (.inr (by rw [hadded]; decide))
  rw [hadded] at hreads
  exact ⟨p, hp, hreads⟩

/-- The legacy id `7` and a new loan `8`: the first position reads as `8`, and a read
of both positions goes round on the first page for ever. -/
theorem legacy_id_lost : ∃ p, Legacy (migrating [7]) 21 [7] ∧
    Writes (migrating [7]) (sampleRecord 8) p ∧
    added 21 [(migrating [7], sampleRecord 8)] = [8] ∧
    getUserLoanIdsPaginated p 21 0 1 2 = some (.ok [8]) ∧
    ¬p.Reads 21 [7, 8] 0 1 ∧ (∀ fuel, getUserLoanIdsPaginated p 21 0 2 fuel = none) ∧
    ¬p.Reads 21 [7, 8] 0 2 := by
  have hwrite : (writeLoan (sampleRecord 8) (migrating [7])).toOption.map
      (fun p => (p.userLoanPage 21 0, p.userLoanCount 21)) = some (some [8], 2) := by
    decide +kernel
  obtain ⟨p, hp, hstored⟩ := toOption_map_some.mp hwrite
  obtain ⟨hpage, hcount⟩ := Prod.mk.injEq .. ▸ hstored
  have hlegacy : Legacy (migrating [7]) 21 [7] := migrating_legacy (by decide) (by decide)
  have hadded : added 21 [(migrating [7], sampleRecord 8)] = [8] := by decide +kernel
  have hmigrated : Migrated p 21 [7] ([] ++ added 21 [(migrating [7], sampleRecord 8)]) :=
    hlegacy.migrated.write hp
  rw [hadded] at hmigrated
  -- At position `1` the page has ended, and every round leaves the reader there.
  have hstuck : ∀ fuel result, readPages p 21 2 fuel 1 result = none := by
    intro fuel
    induction fuel with
    | zero => exact fun _ => rfl
    | succ fuel ih =>
      intro result
      rw [readPages, if_pos (by decide)]
      simp only [show 1 / pageSize % 2 ^ 32 = 0 from rfl, hpage]
      exact ih result
  have hnever : ∀ fuel, getUserLoanIdsPaginated p 21 0 2 fuel = none := by
    intro fuel
    simp only [getUserLoanIdsPaginated, getUserLoanCount, hcount]
    cases fuel with
    | zero => rfl
    | succ fuel =>
      rw [if_neg (by decide), readPages, if_pos (by decide)]
      simp only [show 0 / pageSize % 2 ^ 32 = 0 from rfl, hpage]
      exact hstuck fuel _
  refine ⟨p, hlegacy, hp, hadded, ?_, ?_, hnever, ?_⟩
  · simp only [getUserLoanIdsPaginated, getUserLoanCount, hcount]
    rw [if_neg (by decide), readPages, if_pos (by decide)]
    simp only [show 0 / pageSize % 2 ^ 32 = 0 from rfl, hpage]
    rfl
  · intro hread
    exact hmigrated.read_one (by decide) hread 1 (by decide) (by decide) rfl
  · rintro ⟨fuel, hread⟩
    rw [hnever fuel] at hread
    cases hread

end StepFi.CreditLine
