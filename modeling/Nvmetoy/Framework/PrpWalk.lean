import Nvmetoy.Framework.Bytes

/-!
# Physical region pages

A transfer names its pages by two entries. The first page is the first entry. If two pages are
needed, the second entry is the second page; if more are, it points to a list of 8-byte entries
in memory, one for each further page. A list that goes past the end of its page continues in
another one: the last slot of a page is then a pointer to the next, and it is so only if further
entries remain after it.

`walk` is the reader of this format, over any memory and any page size. It has to follow
whatever it finds, so the slots it may read are bounded. `walkList_eq` says what it finds in a
list that lies in one page, and `walk_mono` that a larger bound changes nothing it has found.

`gather` and `scatter` move bytes through the pages, from any byte of the transfer on. Over
pages that follow one another they are one contiguous access (`gather_eq`, `scatter_eq`).
-/

namespace Framework

namespace Prp

/-- The 8-byte entry at address `a`. -/
def entry (m : Mem) (a : Nat) : Nat := ofLe (m.read a 8)

/-- The pages of the next `n` entries of a list, from the slot at address `a` on. -/
def walkList (pageSize : Nat) (m : Mem) : (fuel n a : Nat) → Option (List Nat)
  | _, 0, _ => some []
  | 0, _ + 1, _ => none
  | fuel + 1, n + 1, a =>
    if n ≠ 0 ∧ (a + 8) % pageSize = 0 then walkList pageSize m fuel (n + 1) (entry m a)
    else (walkList pageSize m fuel n (a + 8)).map (entry m a :: ·)

/-- The pages that `length` bytes from address `a` lie in. -/
def pageCount (pageSize a length : Nat) : Nat :=
  (a % pageSize + length + (pageSize - 1)) / pageSize

/-- The pages of a transfer. -/
def walk (pageSize : Nat) (m : Mem) (fuel prp1 prp2 length : Nat) : Option (List Nat) :=
  match pageCount pageSize prp1 length with
  | 0 => some []
  | 1 => some [prp1]
  | 2 => some [prp1, prp2]
  | n + 3 => (walkList pageSize m fuel (n + 2) prp2).map (prp1 :: ·)

variable {pageSize : Nat} {m m' : Mem} {a n fuel : Nat} {page : Nat → Nat}

/-- Entries only depend on the memory they lie in. -/
theorem entry_congr (h : ∀ x, a ≤ x → x < a + 8 → m x = m' x) : entry m a = entry m' a :=
  congrArg ofLe (Mem.read_congr h)

/-- An entry that has been stored. -/
theorem entry_write {v : Nat} (h : v < 2 ^ 64) : entry (m.write a (toLe 8 v)) a = v := by
  have hread : (m.write a (toLe 8 v)).read a 8 = toLe 8 v := by
    simpa using @Mem.read_write_self m a (toLe 8 v)
  rw [entry, hread, ofLe_toLe, Nat.mod_eq_of_lt]
  exact h

/-- **A list in one page.** If no slot but the last of it ends a page, each slot is the page it
names, in order. -/
theorem walkList_eq (hfuel : n ≤ fuel) (hentry : ∀ k, k < n → entry m (a + 8 * k) = page k)
    (hpage : ∀ k, k + 1 < n → (a + 8 * (k + 1)) % pageSize ≠ 0) :
    walkList pageSize m fuel n a = some ((List.range n).map page) := by
  induction n generalizing a fuel page with
  | zero => cases fuel <;> rfl
  | succ n ih =>
    obtain ⟨fuel, rfl⟩ : ∃ k, fuel = k + 1 := ⟨fuel - 1, by omega⟩
    -- this slot is followed by another of the same page, or is the last one
    have hslot : ¬ (n ≠ 0 ∧ (a + 8) % pageSize = 0) := by
      intro ⟨hn, hend⟩
      exact hpage 0 (by omega) (by simpa using hend)
    have hshift (k : Nat) : a + 8 * (k + 1) = a + 8 + 8 * k := by omega
    have hrest : walkList pageSize m fuel n (a + 8) =
        some ((List.range n).map fun k => page (k + 1)) := by
      refine ih (by omega) (fun k hk => ?_) fun k hk => ?_
      · rw [← hentry (k + 1) (by omega), hshift]
      · rw [← hshift]
        exact hpage (k + 1) (by omega)
    have hfirst : entry m a = page 0 := by
      have := hentry 0 (by omega)
      rwa [Nat.mul_zero, Nat.add_zero] at this
    rw [walkList, if_neg hslot, hrest, hfirst, List.range_succ_eq_map, List.map_cons, List.map_map]
    rfl

/-! ### A larger bound -/

/-- More fuel does no harm to the walk over a list. -/
theorem walkList_mono {fuel' : Nat} {pages : List Nat} (hle : fuel ≤ fuel')
    (h : walkList pageSize m fuel n a = some pages) :
    walkList pageSize m fuel' n a = some pages := by
  -- by induction on the fuel that was enough
  induction fuel generalizing fuel' n a pages with
  | zero =>
    cases n with
    | zero => cases fuel' <;> exact h
    | succ n => cases h
  | succ fuel ih =>
    obtain ⟨fuel', rfl⟩ : ∃ k, fuel' = k + 1 := ⟨fuel' - 1, by omega⟩
    cases n with
    | zero => exact h
    | succ n =>
      rw [walkList] at h ⊢
      split at h
      · -- the last slot of a page leads on to the next list
        next hchain =>
        rw [if_pos hchain]
        exact ih (by omega) h
      · next hchain =>
        obtain ⟨rest, hrest, rfl⟩ := Option.map_eq_some_iff.mp h
        rw [if_neg hchain, ih (by omega) hrest, Option.map_some]

theorem walk_mono {fuel' prp1 prp2 length : Nat} {pages : List Nat} (hle : fuel ≤ fuel')
    (h : walk pageSize m fuel prp1 prp2 length = some pages) :
    walk pageSize m fuel' prp1 prp2 length = some pages := by
  unfold walk at h ⊢
  split at h
  · exact h
  · exact h
  · exact h
  · obtain ⟨rest, hrest, rfl⟩ := Option.map_eq_some_iff.mp h
    rw [walkList_mono hle hrest, Option.map_some]

/-! ### Moving bytes through the pages -/

/-- The address of byte `x` of a transfer. Only the first page may begin at an offset. -/
def byteAddress (pageSize : Nat) (pages : List Nat) (x : Nat) : Nat :=
  let y := pages.headD 0 % pageSize + x
  pages.getD (y / pageSize) 0 / pageSize * pageSize + y % pageSize

/-- The bytes `start`, ..., `start + n - 1` of a transfer. -/
def gather (pageSize : Nat) (m : Mem) (pages : List Nat) (start n : Nat) : List UInt8 :=
  (List.range n).map fun k => m (byteAddress pageSize pages (start + k))

@[simp] theorem length_gather {pages : List Nat} {start : Nat} :
    (gather pageSize m pages start n).length = n := by
  rw [gather, List.length_map, List.length_range]

/-- Store bytes, from byte `start` of a transfer on. -/
def scatter (pageSize : Nat) (pages : List Nat) : Mem → Nat → List UInt8 → Mem
  | m, _, [] => m
  | m, start, b :: bs =>
    scatter pageSize pages (m.write (byteAddress pageSize pages start) [b]) (start + 1) bs

/-- Pages that follow one another. -/
theorem byteAddress_range {count x : Nat} (hbase : a % pageSize = 0) (hx : x < count * pageSize) :
    byteAddress pageSize ((List.range count).map fun k => a + k * pageSize) x = a + x := by
  have hpos : 0 < pageSize := Nat.pos_of_ne_zero fun h => by simp [h] at hx
  obtain ⟨count, rfl⟩ : ∃ k, count = k + 1 := ⟨count - 1, by
    rcases count with - | k
    · simp at hx
    · rfl⟩
  -- the page that the byte lies in is one of the list
  have hindex : x / pageSize < count + 1 := (Nat.div_lt_iff_lt_mul hpos).mpr hx
  have hhead : ((List.range (count + 1)).map fun k => a + k * pageSize).headD 0 = a := by
    rw [List.range_succ_eq_map]
    simp
  have hget : ((List.range (count + 1)).map fun k => a + k * pageSize).getD (x / pageSize) 0 =
      a + x / pageSize * pageSize := by
    rw [List.getD_eq_getElem?_getD, List.getElem?_map, List.getElem?_range hindex]
    rfl
  have hdvd : (a + x / pageSize * pageSize) / pageSize * pageSize =
      a + x / pageSize * pageSize :=
    Nat.div_mul_cancel ((Nat.dvd_add (Nat.dvd_of_mod_eq_zero hbase) (Nat.dvd_mul_left _ _)))
  -- and the rest is the offset in it
  have hsplit : x / pageSize * pageSize + x % pageSize = x := by
    rw [Nat.mul_comm]
    exact Nat.div_add_mod x pageSize
  simp only [byteAddress]
  rw [hhead, hbase, Nat.zero_add, hget, hdvd, Nat.add_assoc, hsplit]

/-- One contiguous read. -/
theorem gather_eq {pages : List Nat} {start : Nat}
    (h : ∀ k, k < n → byteAddress pageSize pages (start + k) = a + start + k) :
    gather pageSize m pages start n = m.read (a + start) n := by
  unfold gather Mem.read
  exact List.map_congr_left fun k hk => congrArg m (h k (List.mem_range.mp hk))

/-- One contiguous write. -/
theorem scatter_eq {pages : List Nat} {start : Nat} {bs : List UInt8}
    (h : ∀ k, k < bs.length → byteAddress pageSize pages (start + k) = a + start + k) :
    scatter pageSize pages m start bs = m.write (a + start) bs := by
  induction bs generalizing m start with
  | nil => rw [scatter, Mem.write_nil]
  | cons b bs ih =>
    -- the first byte goes to the first place, the others one further on
    have hfirst := h 0 (Nat.succ_pos _)
    rw [Nat.add_zero] at hfirst
    have hrest : scatter pageSize pages (m.write (a + start) [b]) (start + 1) bs =
        (m.write (a + start) [b]).write (a + (start + 1)) bs :=
      ih fun k hk => by
        have := h (k + 1) (Nat.succ_lt_succ hk)
        rw [show start + 1 + k = start + (k + 1) by omega, this]
        omega
    rw [scatter, hfirst, Nat.add_zero, hrest, show b :: bs = [b] ++ bs from rfl, Mem.write_append]
    rfl

end Prp

end Framework
