import StepFi.CreditLine.Runs
import StepFi.Lib.Paged

/-!
# Reading the index

The paginated reader goes on page by page, and entry by entry where a page is
missing. What it finds at a position is `Storage.slotAt`; a read returns what its
positions hold, if they all hold something, and otherwise nothing at all
(`reads_iff_slots`).
-/

namespace StepFi.CreditLine

open Lib

variable {p : Storage} {borrower : Address} {stop fuel idx : Nat} {ids result out : List Nat}

/-! ## One page -/

theorem readPage_eq (stop : Nat) (rest : List Nat) (idx : Nat) (result : List Nat) :
    readPage stop rest idx result =
      (idx + min rest.length (stop - idx), result ++ rest.take (stop - idx)) := by
  induction rest generalizing idx result with
  | nil => simp [readPage]
  | cons loanId rest ih =>
    rw [readPage]
    split
    · rename_i hlt
      obtain ⟨k, hk⟩ : ∃ k, stop - idx = k + 1 := ⟨stop - idx - 1, by omega⟩
      have hk' : stop - (idx + 1) = k := by omega
      rw [ih, hk, hk', List.take_succ_cons, List.append_assoc, List.length_cons]
      exact Prod.ext (by dsimp only; omega) rfl
    · have h0 : stop - idx = 0 := by omega
      rw [h0, List.take_zero, List.append_nil, Nat.min_zero, Nat.add_zero]

theorem pageNum_lt {i : Nat} (h : i < 2 ^ 37) : i / pageSize < 2 ^ 32 := by
  rw [Nat.div_lt_iff_lt_mul (by decide)]
  exact h

/-- The page of a position, a 32-bit number. -/
def pageNumber (i : Nat) : Nat := (i / pageSize) % 2 ^ 32

theorem pageNumber_eq {i : Nat} (h : i < 2 ^ 37) : pageNumber i = i / pageSize :=
  Nat.mod_eq_of_lt (pageNum_lt h)

/-! ## The reader, position by position -/

/-- What the reader finds at a position. -/
def Storage.slotAt (p : Storage) (borrower : Address) (i : Nat) : Option Nat :=
  match p.userLoanPage borrower (pageNumber i) with
  | some page => page[i % pageSize]?
  | none => (p.userLoanAt borrower i).or (p.userLoanAtInstance borrower i)

/-- From `idx` to `stop` no page goes on past its own block of positions. -/
def Storage.Within (p : Storage) (borrower : Address) (idx stop : Nat) : Prop :=
  ∀ i page, idx ≤ i → i < stop → p.userLoanPage borrower (pageNumber i) = some page →
    page.length ≤ pageSize ∨ stop ≤ (i / pageSize + 1) * pageSize

/-- The entries that a round takes from a page are what its positions hold. -/
theorem slots_of_page {page : List Nat} (hwithin : p.Within borrower idx stop) (hlt : idx < stop)
    (hpage : p.userLoanPage borrower (pageNumber idx) = some page) :
    let taken := (page.drop (idx % pageSize)).take (stop - idx)
    (List.range' idx taken.length).map (p.slotAt borrower) = taken.map some := by
  intro taken
  have hlen : taken.length = min (stop - idx) (page.length - idx % pageSize) := by
    rw [List.length_take, List.length_drop]
  refine List.ext_getElem (by simp) fun k hk _ => ?_
  simp only [List.length_map, List.length_range'] at hk
  have hblock : (idx + k) / pageSize = idx / pageSize := by
    rcases hwithin idx page (Nat.le_refl idx) hlt hpage with hfits | hstop <;>
      simp only [pageSize] at * <;> omega
  have hoffset : (idx + k) % pageSize = idx % pageSize + k := by
    have hdiv := Nat.div_add_mod (idx + k) pageSize
    have hdiv' := Nat.div_add_mod idx pageSize
    rw [hblock] at hdiv
    omega
  have hslot : p.slotAt borrower (idx + k) = page[idx % pageSize + k]? := by
    simp only [Storage.slotAt, pageNumber, hblock, hoffset]
    rw [show p.userLoanPage borrower (idx / pageSize % 2 ^ 32) = some page from hpage]
  rw [List.getElem_map, List.getElem_map, List.getElem_range', Nat.one_mul, hslot,
    List.getElem_take, List.getElem_drop, List.getElem?_eq_getElem]

/-- A round of the reader takes the ids at the next positions, or the next position
holds none and no number of rounds returns ids. -/
theorem readPages_round (hwithin : p.Within borrower idx stop) (hlt : idx < stop) :
    (∃ taken : List Nat, taken ≠ [] ∧ taken.length ≤ stop - idx ∧
      (List.range' idx taken.length).map (p.slotAt borrower) = taken.map some ∧
      ∀ fuel result, readPages p borrower stop (fuel + 1) idx result =
        readPages p borrower stop fuel (idx + taken.length) (result ++ taken)) ∨
    (p.slotAt borrower idx = none ∧
      ∀ fuel result out, readPages p borrower stop fuel idx result ≠ some (.ok out)) := by
  cases hpage : p.userLoanPage borrower (pageNumber idx) with
  | some page =>
    have hround : ∀ fuel result, readPages p borrower stop (fuel + 1) idx result =
        readPages p borrower stop fuel
          (idx + ((page.drop (idx % pageSize)).take (stop - idx)).length)
          (result ++ (page.drop (idx % pageSize)).take (stop - idx)) := by
      intro fuel result
      have hpage' : p.userLoanPage borrower (idx / pageSize % 2 ^ 32) = some page := hpage
      rw [readPages, if_pos hlt]
      simp only [hpage', readPage_eq, List.length_take, Nat.min_comm]
    rcases Nat.lt_or_ge (idx % pageSize) page.length with hin | hout
    · refine .inl ⟨_, ?_, List.length_take_le .., slots_of_page hwithin hlt hpage, hround⟩
      rw [← List.length_pos_iff, List.length_take, List.length_drop]
      omega
    · -- The page ends before the position: the round takes nothing, and so do all others.
      refine .inr ⟨?_, ?_⟩
      · simp only [Storage.slotAt, hpage]
        exact List.getElem?_eq_none hout
      · intro fuel
        induction fuel with
        | zero => simp [readPages]
        | succ fuel ih =>
          intro result out
          rw [hround, List.drop_of_length_le hout]
          simpa using ih result out
  | none =>
    have hslot : p.slotAt borrower idx =
        (p.userLoanAt borrower idx).or (p.userLoanAtInstance borrower idx) := by
      simp only [Storage.slotAt, hpage]
    have hpage' : p.userLoanPage borrower (idx / pageSize % 2 ^ 32) = none := hpage
    cases hentry : (p.userLoanAt borrower idx).or (p.userLoanAtInstance borrower idx) with
    | some id =>
      refine .inl ⟨[id], by simp, by simp; omega, by simp [hslot, hentry], ?_⟩
      intro fuel result
      rw [readPages, if_pos hlt]
      simp only [hpage', hentry, List.length_singleton]
    | none =>
      refine .inr ⟨by rw [hslot, hentry], ?_⟩
      intro fuel result out
      cases fuel with
      | zero => simp [readPages]
      | succ fuel =>
        rw [readPages, if_pos hlt]
        simp only [hpage', hentry]
        nofun

theorem Storage.Within.from {idx' : Nat} (h : p.Within borrower idx stop) (hle : idx ≤ idx') :
    p.Within borrower idx' stop :=
  fun i page hi => h i page (Nat.le_trans hle hi)

/-- What a read returned is what its positions hold. -/
theorem readPages_sound (hwithin : p.Within borrower idx stop)
    (h : readPages p borrower stop fuel idx result = some (.ok out)) :
    ∃ ids, out = result ++ ids ∧
      (List.range' idx (stop - idx)).map (p.slotAt borrower) = ids.map some := by
  induction fuel generalizing idx result with
  | zero => cases h
  | succ fuel ih =>
    rcases Nat.lt_or_ge idx stop with hlt | hge
    · rcases readPages_round hwithin hlt with ⟨taken, -, hle, hslots, hround⟩ | ⟨-, hnever⟩
      · rw [hround] at h
        obtain ⟨ids, hout, hrest⟩ := ih (hwithin.from (Nat.le_add_right ..)) h
        refine ⟨taken ++ ids, by rw [hout, List.append_assoc], ?_⟩
        have hsplit : stop - idx = taken.length + (stop - (idx + taken.length)) := by omega
        rw [hsplit, ← List.range'_append_1, List.map_append, hslots, hrest, List.map_append]
      · exact absurd h (hnever _ _ _)
    · rw [readPages, if_neg (Nat.not_lt.mpr hge)] at h
      obtain rfl := Except.ok.inj (Option.some.inj h)
      exact ⟨[], by simp, by rw [Nat.sub_eq_zero_of_le hge]; rfl⟩

/-- A read whose positions all hold an id returns these. -/
theorem readPages_complete (hwithin : p.Within borrower idx stop)
    (hslots : (List.range' idx (stop - idx)).map (p.slotAt borrower) = ids.map some)
    (hfuel : stop - idx < fuel) :
    readPages p borrower stop fuel idx result = some (.ok (result ++ ids)) := by
  induction fuel generalizing idx result ids with
  | zero => exact absurd hfuel (Nat.not_lt_zero _)
  | succ fuel ih =>
    have hlen : ids.length = stop - idx := by
      simpa using (congrArg List.length hslots).symm
    rcases Nat.lt_or_ge idx stop with hlt | hge
    · rcases readPages_round hwithin hlt with ⟨taken, hne, hle, htaken, hround⟩ | ⟨hnone, -⟩
      · have hsplit : stop - idx = taken.length + (stop - (idx + taken.length)) := by omega
        rw [hsplit, ← List.range'_append_1, List.map_append, htaken] at hslots
        obtain ⟨first, rest, rfl, hfirst, hrest⟩ := List.append_eq_map_iff.mp hslots
        obtain rfl : first = taken := List.map_injective_iff.mpr (Option.some_injective _) hfirst
        have hpos := List.length_pos_iff.mpr hne
        rw [hround, ih (hwithin.from (Nat.le_add_right ..)) hrest.symm (by omega),
          List.append_assoc]
      · obtain ⟨k, hk⟩ : ∃ k, stop - idx = k + 1 := ⟨stop - idx - 1, by omega⟩
        cases ids with
        | nil => simp [hk] at hslots
        | cons id ids => simp [hk, List.range'_succ, hnone] at hslots
    · have h0 : stop - idx = 0 := by omega
      rw [h0, List.length_eq_zero_iff] at hlen
      rw [readPages, if_neg (Nat.not_lt.mpr hge), hlen, List.append_nil]

/-- The positions from `start` on, at most `limit` of them, that `all` has. -/
theorem slots_slice {f : Nat → Option Nat} {all : List Nat} {start limit : Nat} :
    (List.range' start ((all.drop start).take limit).length).map f =
        ((all.drop start).take limit).map some ↔
      ∀ i, start ≤ i → i < start + limit → i < all.length → f i = all[i]? := by
  have hlen : ((all.drop start).take limit).length = min limit (all.length - start) := by
    rw [List.length_take, List.length_drop]
  constructor
  · intro h i hstart hlimit hi
    have hget := List.ext_getElem?_iff.mp h (i - start)
    have hat : start + (i - start) = i := by omega
    rw [List.getElem?_map, List.getElem?_map, List.getElem?_range' (by omega), Nat.one_mul, hat,
      List.getElem?_take_of_lt (by omega), List.getElem?_drop, hat,
      List.getElem?_eq_getElem hi] at hget
    rw [List.getElem?_eq_getElem hi]
    exact Option.some.inj hget
  · intro h
    refine List.ext_getElem (by simp) fun k hk _ => ?_
    simp only [List.length_map, List.length_range', hlen] at hk
    have hslot := h (start + k) (by omega) (by omega) (by omega)
    rw [List.getElem_map, List.getElem_map, List.getElem_range', Nat.one_mul, hslot,
      List.getElem_take, List.getElem_drop, List.getElem?_eq_getElem]

/-- Some number of rounds returns the slice of `all` that was asked for. -/
def Storage.Reads (p : Storage) (borrower : Address) (all : List Nat) (start limit : Nat) : Prop :=
  ∃ fuel, getUserLoanIdsPaginated p borrower start limit fuel =
    some (.ok ((all.drop start).take limit))

theorem reads_iff_slots {all : List Nat} {start limit : Nat}
    (hcount : p.userLoanCount borrower = all.length) (hlt : all.length < 2 ^ 64)
    (hwithin : p.Within borrower start (min (start + limit) all.length)) :
    p.Reads borrower all start limit ↔
      ∀ i, start ≤ i → i < start + limit → i < all.length → p.slotAt borrower i = all[i]? := by
  have hlen : ((all.drop start).take limit).length = min (start + limit) all.length - start := by
    rw [List.length_take, List.length_drop]
    omega
  rw [← slots_slice, hlen, Storage.Reads]
  simp only [getUserLoanIdsPaginated, getUserLoanCount, hcount]
  by_cases hnone : limit = 0 ∨ all.length ≤ start
  · have h0 : (all.drop start).take limit = [] := by
      rw [← List.length_eq_zero_iff, hlen]
      omega
    have hstop : min (start + limit) all.length - start = 0 := by omega
    simp [hnone, h0, hstop]
  · have hstop : min (min (start + limit) (2 ^ 64 - 1)) all.length
        = min (start + limit) all.length := by omega
    simp only [hnone, if_false, hstop]
    constructor
    · rintro ⟨fuel, hread⟩
      obtain ⟨ids, hids, hslots⟩ := readPages_sound hwithin hread
      rwa [hids, List.nil_append]
    · intro hslots
      exact ⟨_, readPages_complete hwithin hslots (Nat.lt_succ_self _)⟩

end StepFi.CreditLine
