import Mathlib.Data.List.Forall2

/-!
# Compiling lists entry by entry

Every list of a configuration is compiled in the same way: one entry after the other, with a
memory of the entries before, up to the first defect. What is remembered differs. It may be the
number of the entry, which only the report of a defect needs; it may be the names that were taken,
or the beat before. So which lists are accepted is worked out once, for any memory, and then for the
two kinds of memory that entries are judged by.

## Main definitions

* `EntryByEntry` — a compiler of lists
* `Along` — what is to hold of every entry, given the memory
* `memoryAt` — what is remembered at a place
* `nameAt` — the name at a place

## Main results

* `EntryByEntry.exists_ok_iff`, `EntryByEntry.forall₂_of_ok` — what is accepted, and what comes out
* `EntryByEntry.eq_error_iff` — what is reported otherwise
* `along_iff_forall`, `along_iff_nodup`, `along_iff_sorted` — entries judged by themselves, by the
  names that were taken, by the one before
* `exists_findIdx?_iff`, `nameAt_of_findIdx?` — the search for a name
-/

namespace BulletHell

section Entries

variable {α β ε κ : Type} {go : κ → List α → Except ε (List β)} {step : κ → α → Except ε β}
  {next : κ → α → κ}

/-- A compiler of lists that takes the entries one after the other, and stops at a defect. -/
structure EntryByEntry (go : κ → List α → Except ε (List β)) (step : κ → α → Except ε β)
    (next : κ → α → κ) : Prop where
  nil : ∀ memory, go memory [] = .ok []
  cons : ∀ memory a as, go memory (a :: as) =
    match step memory a with
    | .error e => .error e
    | .ok b =>
      match go (next memory a) as with
      | .error e => .error e
      | .ok bs => .ok (b :: bs)

/-- Something holds of every entry, given what is remembered of the entries before. -/
def Along (next : κ → α → κ) (P : κ → α → Prop) : κ → List α → Prop
  | _, [] => True
  | memory, a :: as => P memory a ∧ Along next P (next memory a) as

/-- What is remembered at a place. -/
def memoryAt (next : κ → α → κ) (memory : κ) (as : List α) (place : Nat) : κ :=
  (as.take place).foldl next memory

/-- What holds of every entry holds of the one at each place. -/
theorem along_iff_memoryAt {P : κ → α → Prop} (memory : κ) (as : List α) :
    Along next P memory as ↔
      ∀ place a, as[place]? = some a → P (memoryAt next memory as place) a := by
  induction as generalizing memory with
  | nil => exact iff_of_true trivial fun place a ha => by cases ha
  | cons a as ih =>
    rw [Along, ih]
    constructor
    · rintro ⟨ha, has⟩ place b hb
      cases place with
      | zero =>
        obtain rfl := Option.some.inj hb
        exact ha
      | succ place => exact has place b hb
    · exact fun h => ⟨h 0 a rfl, fun place b hb => h (place + 1) b hb⟩

namespace EntryByEntry

/-- A list is accepted if each of its entries is. -/
theorem exists_ok_iff (h : EntryByEntry go step next) (memory : κ) (as : List α) :
    (∃ bs, go memory as = .ok bs) ↔
      Along next (fun memory a => ∃ b, step memory a = .ok b) memory as := by
  induction as generalizing memory with
  | nil => exact iff_of_true ⟨[], h.nil memory⟩ trivial
  | cons a as ih =>
    rw [Along, ← ih, h.cons]
    cases step memory a with
    | error e => simp
    | ok b => cases go (next memory a) as <;> simp

/-- **The first defect is reported.** Every entry before it would have been accepted. -/
theorem eq_error_iff (h : EntryByEntry go step next) (memory : κ) (as : List α) (e : ε) :
    go memory as = .error e ↔
      ∃ place a, as[place]? = some a ∧
        (∀ earlier < place, ∀ b, as[earlier]? = some b →
          ∃ c, step (memoryAt next memory as earlier) b = .ok c) ∧
        step (memoryAt next memory as place) a = .error e := by
  induction as generalizing memory with
  | nil =>
    rw [h.nil]
    refine iff_of_false nofun ?_
    rintro ⟨place, a, ha, -⟩
    cases ha
  | cons a as ih =>
    rw [h.cons]
    cases hstep : step memory a with
    | error e' =>
      rw [Except.error.injEq]
      constructor
      · rintro rfl
        exact ⟨0, a, rfl, fun earlier hearlier => absurd hearlier (Nat.not_lt_zero _), hstep⟩
      · rintro ⟨place, b, hb, hbefore, he⟩
        cases place with
        | zero =>
          obtain rfl := Option.some.inj hb
          exact Except.error.inj (hstep.symm.trans he)
        | succ place =>
          obtain ⟨c, hc⟩ := hbefore 0 (Nat.succ_pos place) a rfl
          exact absurd (hstep.symm.trans hc) nofun
    | ok b =>
      have hrest : (match go (next memory a) as with
          | .error e => .error e
          | .ok bs => .ok (b :: bs)) = (.error e : Except ε (List β)) ↔
            go (next memory a) as = .error e := by
        cases go (next memory a) as <;> simp
      rw [hrest, ih]
      constructor
      · rintro ⟨place, a', ha', hbefore, he⟩
        refine ⟨place + 1, a', ha', fun earlier hearlier b' hb' => ?_, he⟩
        cases earlier with
        | zero =>
          obtain rfl := Option.some.inj hb'
          exact ⟨b, hstep⟩
        | succ earlier => exact hbefore earlier (Nat.lt_of_succ_lt_succ hearlier) b' hb'
      · rintro ⟨place, a', ha', hbefore, he⟩
        cases place with
        | zero =>
          obtain rfl := Option.some.inj ha'
          exact absurd (hstep.symm.trans he) nofun
        | succ place =>
          exact ⟨place, a', ha', fun earlier hearlier b' hb' =>
            hbefore (earlier + 1) (Nat.succ_lt_succ hearlier) b' hb', he⟩

/-- Entries and results correspond to each other, one by one. -/
theorem forall₂_of_ok (h : EntryByEntry go step next) {R : α → β → Prop} (memory : κ)
    (hstep : ∀ {memory a b}, step memory a = .ok b → R a b) {as : List α} {bs : List β}
    (hok : go memory as = .ok bs) : List.Forall₂ R as bs := by
  induction as generalizing memory bs with
  | nil =>
    obtain rfl : [] = bs := Except.ok.inj ((h.nil memory).symm.trans hok)
    exact .nil
  | cons a as ih =>
    rw [h.cons] at hok
    split at hok
    · cases hok
    · next b hb =>
      split at hok
      · cases hok
      · next rest hrest =>
        obtain rfl := Except.ok.inj hok
        exact .cons (hstep hb) (ih _ hrest)

end EntryByEntry

/-- Whatever came out, something went in for it. -/
theorem exists_mem_of_forall₂ {R : α → β → Prop} {as : List α} {bs : List β}
    (h : List.Forall₂ R as bs) {b : β} (hb : b ∈ bs) : ∃ a ∈ as, R a b := by
  induction h with
  | nil => cases hb
  | @cons a b' as bs hfirst _ ih =>
    rcases List.mem_cons.mp hb with rfl | hmem
    · exact ⟨a, List.mem_cons_self, hfirst⟩
    · obtain ⟨a', ha', hrest⟩ := ih hmem
      exact ⟨a', List.mem_cons_of_mem _ ha', hrest⟩

/-! ### Memories -/

variable {P : κ → α → Prop} {Q : α → Prop}

/-- Entries that are judged by themselves. -/
theorem along_iff_forall (hP : ∀ memory a, P memory a ↔ Q a) (memory : κ) (as : List α) :
    Along next P memory as ↔ ∀ a ∈ as, Q a := by
  induction as generalizing memory with
  | nil => simp [Along]
  | cons a as ih => rw [Along, hP, ih, List.forall_mem_cons]

/-- Entries whose names may not have been taken before. -/
theorem along_iff_nodup {key : α → String} {P : List String → α → Prop}
    (hP : ∀ taken a, P taken a ↔ key a ∉ taken ∧ Q a) (taken : List String) (as : List α) :
    Along (fun taken a => key a :: taken) P taken as ↔
      (as.map key).Nodup ∧ (∀ a ∈ as, key a ∉ taken) ∧ ∀ a ∈ as, Q a := by
  induction as generalizing taken with
  | nil => simp [Along]
  | cons a as ih =>
    rw [Along, hP, ih, List.map_cons, List.nodup_cons, List.forall_mem_cons, List.forall_mem_cons]
    simp only [List.mem_cons, not_or, List.mem_map, not_exists, not_and]
    constructor
    · rintro ⟨⟨hfree, ha⟩, hnodup, hlater, has⟩
      exact ⟨⟨fun b hb => (hlater b hb).1, hnodup⟩, ⟨hfree, fun b hb => (hlater b hb).2⟩, ha, has⟩
    · rintro ⟨⟨hother, hnodup⟩, ⟨hfree, hlater⟩, ha, has⟩
      exact ⟨⟨hfree, ha⟩, hnodup, fun b hb => ⟨hother b hb, hlater b hb⟩, has⟩

/-- Entries that may not come before the one in front of them. -/
theorem along_iff_sorted (view : κ → Int) (key : α → Int)
    (hnext : ∀ memory a, view (next memory a) = key a)
    (hP : ∀ memory a, P memory a ↔ view memory ≤ key a ∧ Q a) (memory : κ) (as : List α) :
    Along next P memory as ↔
      (∀ a ∈ as, view memory ≤ key a) ∧ as.Pairwise (key · ≤ key ·) ∧ ∀ a ∈ as, Q a := by
  induction as generalizing memory with
  | nil => simp [Along]
  | cons a as ih =>
    rw [Along, hP, ih, hnext, List.forall_mem_cons, List.pairwise_cons, List.forall_mem_cons]
    constructor
    · rintro ⟨⟨hview, ha⟩, hlater, hsorted, has⟩
      exact ⟨⟨hview, fun b hb => Int.le_trans hview (hlater b hb)⟩, ⟨hlater, hsorted⟩, ha, has⟩
    · rintro ⟨⟨hview, -⟩, ⟨hlater, hsorted⟩, ha, has⟩
      exact ⟨⟨hview, ha⟩, hlater, hsorted, has⟩

end Entries

/-! ### Names -/

section Names

variable {α ι : Type} {key : α → String}

/-- The name at a place. -/
def nameAt (key : α → String) (xs : List α) (place : Nat) : Option String :=
  xs[place]?.map key

/-- A place with a name is there. -/
theorem lt_length_of_nameAt {xs : List α} {place : Nat} {name : String}
    (h : nameAt key xs place = some name) : place < xs.length := by
  obtain ⟨a, ha, -⟩ := Option.map_eq_some_iff.mp h
  exact (List.getElem?_eq_some_iff.mp ha).1

/-- The search for a name succeeds if the name is there. -/
theorem exists_findIdx?_iff {xs : List α} {name : String} (id : Nat → ι) :
    (∃ found, (xs.findIdx? (key · == name)).map id = some found) ↔ name ∈ xs.map key := by
  rw [← Option.isSome_iff_exists, Option.isSome_map, List.findIdx?_isSome, List.any_eq_true,
    List.mem_map]
  simp only [beq_iff_eq]

/-- At the place that was found stands the name. -/
theorem nameAt_of_findIdx? {xs : List α} {name : String} {place : Nat}
    (h : xs.findIdx? (key · == name) = some place) : nameAt key xs place = some name := by
  obtain ⟨hplace, hname, -⟩ := List.findIdx?_eq_some_iff_getElem.mp h
  rw [nameAt, List.getElem?_eq_getElem hplace, Option.map_some, beq_iff_eq.mp hname]

end Names

end BulletHell
