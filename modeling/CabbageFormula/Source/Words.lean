import CabbageFormula.Source
import CabbageFormula.Word

/-!
# Rolling with random words

A stream of random words becomes a source of faces by widening multiplication: a word times the
number of sides is a number of 128 bits, whose upper half is a face, counted from zero, and whose
lower half tells whether the word is one of the few that would favour some face.  Such a word is
rejected and the next one is tried, so a face may take any number of words.

* `face?` — the face that a word shows, or `none` if the word is rejected.
* `WordStream` — an endless stream of words on which no wait lasts for ever.
* `WordStream.sample`, `WordStream.take` — one face, and a number of them.
* `WordSource` — a stream and how far it has been used; the random source of rolls.
-/

namespace CabbageFormula

/-! ## One word -/

/-- **The face that a word shows** on a cabbage with a number of sides, or `none` if the word is
rejected: of the lower halves only the first `2 ^ 64 - 2 ^ 64 % sides` are accepted, a multiple of
the number of sides. -/
def face? (sides word : UInt64) : Option UInt64 :=
  if word.toNat * sides.toNat % UInt64.size < UInt64.size - UInt64.size % sides.toNat then
    some (UInt64.ofNat (1 + word.toNat * sides.toNat / UInt64.size))
  else none

/-- The word zero is never rejected; it shows the first face. -/
theorem face?_zero {sides : UInt64} (h : sides ≠ 0) : face? sides 0 = some 1 := by
  have lt : sides.toNat < UInt64.size := sides.toNat_lt
  have pos : 0 < sides.toNat := Nat.pos_of_ne_zero fun e => h (UInt64.toNat_inj.mp e)
  have := Nat.mod_lt UInt64.size pos
  unfold face?
  rw [UInt64.toNat_zero, Nat.zero_mul, Nat.zero_mod, Nat.zero_div, if_pos (by omega)]
  rfl

/-! ## Streams -/

/-- **A stream of words on which no wait lasts for ever**: whatever the number of sides, behind
every position there is a word that is accepted. -/
structure WordStream where
  /-- The word at each position. -/
  word : Nat → UInt64
  /-- From every position on, some word is accepted. -/
  exists_face : ∀ sides ≠ 0, ∀ start, ∃ wait, (face? sides (word (start + wait))).isSome

namespace WordStream

theorem exists_first_face (w : WordStream) {sides : UInt64} (h : sides ≠ 0) (start : Nat) :
    ∃ wait, (face? sides (w.word (start + wait))).isSome ∧
      ∀ n < wait, face? sides (w.word (start + n)) = none := by
  obtain ⟨wait, found⟩ := w.exists_face sides h start
  induction wait using Nat.strongRecOn with
  | ind wait ih =>
    by_cases sooner : ∃ n, n < wait ∧ (face? sides (w.word (start + n))).isSome
    · obtain ⟨n, lt, hn⟩ := sooner
      exact ih n lt hn
    · refine ⟨wait, found, fun n lt => ?_⟩
      have rejected := not_exists.mp sooner n
      simpa [lt] using rejected

/-- How many words are rejected from a position on, before the next that is accepted.  This is
what ends the search for that word; the search itself does not compute it. -/
noncomputable def wait (w : WordStream) (sides : UInt64) (h : sides ≠ 0) (start : Nat) : Nat :=
  Classical.choose (w.exists_first_face h start)

theorem face?_wait (w : WordStream) {sides : UInt64} (h : sides ≠ 0) (start : Nat) :
    (face? sides (w.word (start + w.wait sides h start))).isSome :=
  (Classical.choose_spec (w.exists_first_face h start)).1

theorem face?_of_lt_wait (w : WordStream) {sides : UInt64} (h : sides ≠ 0) {start n : Nat}
    (lt : n < w.wait sides h start) : face? sides (w.word (start + n)) = none :=
  (Classical.choose_spec (w.exists_first_face h start)).2 n lt

theorem wait_succ_lt (w : WordStream) {sides : UInt64} (h : sides ≠ 0) {start : Nat}
    (rejected : face? sides (w.word start) = none) :
    w.wait sides h (start + 1) < w.wait sides h start := by
  have found := w.face?_wait h start
  cases hw : w.wait sides h start with
  | zero => simp [hw, rejected] at found
  | succ n =>
    rw [hw, Nat.add_comm n 1, ← Nat.add_assoc] at found
    refine Nat.lt_of_not_le fun le => ?_
    have := w.face?_of_lt_wait h (Nat.lt_of_succ_le le)
    simp [this] at found

/-- **The first face from a position on**, and the position behind the word that showed it. -/
def sample (w : WordStream) (sides : UInt64) (h : sides ≠ 0) (start : Nat) : UInt64 × Nat :=
  match shown : face? sides (w.word start) with
  | some face => (face, start + 1)
  | none => sample w sides h (start + 1)
termination_by w.wait sides h start
decreasing_by exact w.wait_succ_lt h shown

theorem sample_of_some {w : WordStream} {sides face : UInt64} (h : sides ≠ 0) {start : Nat}
    (shown : face? sides (w.word start) = some face) :
    w.sample sides h start = (face, start + 1) := by
  rw [sample]
  split <;> simp_all

theorem sample_of_none {w : WordStream} {sides : UInt64} (h : sides ≠ 0) {start : Nat}
    (rejected : face? sides (w.word start) = none) :
    w.sample sides h start = w.sample sides h (start + 1) := by
  rw [sample]
  split <;> simp_all

/-- **A number of faces from a position on**, one after the other, and the position behind. -/
def take (w : WordStream) (sides : UInt64) (h : sides ≠ 0) : Nat → Nat → List UInt64 × Nat
  | 0, start => ([], start)
  | count + 1, start =>
    let (face, next) := w.sample sides h start
    let (faces, stop) := take w sides h count next
    (face :: faces, stop)

@[simp] theorem take_zero (w : WordStream) {sides : UInt64} (h : sides ≠ 0) (start : Nat) :
    w.take sides h 0 start = ([], start) := rfl

@[simp] theorem take_succ (w : WordStream) {sides : UInt64} (h : sides ≠ 0) (count start : Nat) :
    w.take sides h (count + 1) start =
      ((w.sample sides h start).1 :: (w.take sides h count (w.sample sides h start).2).1,
        (w.take sides h count (w.sample sides h start).2).2) := rfl

/-! ## Particular streams -/

/-- A stream in which zero turns up behind every position. -/
def ofZeros (word : Nat → UInt64) (zeros : ∀ start, ∃ wait, word (start + wait) = 0) :
    WordStream where
  word := word
  exists_face sides h start := by
    obtain ⟨wait, e⟩ := zeros start
    exact ⟨wait, by rw [e, face?_zero h]; rfl⟩

/-- The step of the additive sequence: the golden ratio as a fraction of `2 ^ 64`, made odd. -/
def golden : UInt64 := 0x9E3779B97F4A7C15

/-- The inverse of `golden` modulo `2 ^ 64`. -/
def goldenInverse : UInt64 := 0xF1DE83E19937733D

theorem goldenInverse_mul_golden : goldenInverse * golden = 1 := by decide

/-- An additive sequence with the step `golden` comes by zero again and again. -/
theorem exists_golden_eq_zero (seed : UInt64) (start : Nat) :
    ∃ wait, seed + UInt64.ofNat (start + wait) * golden = 0 := by
  refine ⟨(-(seed * goldenInverse) - UInt64.ofNat start).toNat, ?_⟩
  rw [UInt64.ofNat_add, UInt64.ofNat_toNat]
  have inverse := goldenInverse_mul_golden
  generalize UInt64.ofNat start = s
  generalize goldenInverse = i at *
  generalize golden = g at *
  grind

/-- **The additive sequence** `golden`, `2 * golden`, `3 * golden` and so on. -/
def additive : WordStream :=
  ofZeros (fun n => golden + UInt64.ofNat n * golden) (exists_golden_eq_zero golden)

/-- Stirs a word, so that neighbours of a sequence look unrelated.  Zero stays zero. -/
def stir (z : UInt64) : UInt64 :=
  let z := (z ^^^ (z >>> 30)) * 0xBF58476D1CE4E5B9
  let z := (z ^^^ (z >>> 27)) * 0x94D049BB133111EB
  z ^^^ (z >>> 31)

/-- **A pseudorandom stream**: an additive sequence from a seed on, stirred. -/
def seeded (seed : UInt64) : WordStream :=
  ofZeros (fun n => stir (seed + UInt64.ofNat n * golden)) fun start => by
    obtain ⟨wait, e⟩ := exists_golden_eq_zero seed start
    exact ⟨wait, by rw [e]; decide⟩

/-- **Given words ahead of a stream.** -/
def prepend (words : Array UInt64) (w : WordStream) : WordStream where
  word n := if h : n < words.size then words[n] else w.word (n - words.size)
  exists_face sides h start := by
    obtain ⟨wait, found⟩ := w.exists_face sides h start
    refine ⟨words.size + wait, ?_⟩
    rw [dif_neg (by omega), show start + (words.size + wait) - words.size = start + wait by omega]
    exact found

end WordStream

/-! ## The source -/

/-- **A stream of words, and how many of them have been used.** -/
structure WordSource where
  stream : WordStream
  position : Nat := 0

namespace WordSource

instance : RollSource WordSource where
  draw d s :=
    let (faces, position) := s.stream.take d.sides d.sides_ne_zero d.count.toNat s.position
    (faces, { s with position })

theorem draw_eq (d : Draw) (s : WordSource) :
    RollSource.draw d s =
      ((s.stream.take d.sides d.sides_ne_zero d.count.toNat s.position).1,
        ⟨s.stream, (s.stream.take d.sides d.sides_ne_zero d.count.toNat s.position).2⟩) := rfl

/-- **How many words each of a list of draws uses**, rejected ones included. -/
def spent : List Draw → WordSource → List Nat
  | [], _ => []
  | d :: rest, s =>
    let next := (RollSource.draw d s).2
    (next.position - s.position) :: spent rest next

end WordSource

end CabbageFormula
