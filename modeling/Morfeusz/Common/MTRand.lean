import Morfeusz.Lib.Runs
import Morfeusz.Lib.ShiftRegister
import Morfeusz.Lib.XorLinear

/-!
# The random numbers of the daemons

`MersenneTwist` holds 624 words and hands them out one by one, tempered; when all are handed
out it makes the next 624 in place. The words are of type `unsigned long`, which has 64 bits
here, and are kept below `2 ^ 32` by masks.

What is handed out is the stream of a shift register
(`Morfeusz.MersenneTwist.genrands_eq`), whatever the blocks; no array is read or written
outside of its bounds, and no number has more than 32 bits
(`Morfeusz.MersenneTwist.generatorRun_iff`). Tempering can be undone, so that every number
from the 625th on is told by three that were handed out before it
(`Morfeusz.MersenneTwist.genrands_predicted`).
-/

namespace Morfeusz

open ShiftRegister

/-- The words of the generator, and how many of them are handed out. -/
structure MersenneTwist where
  mt : Vector UInt64 624
  mti : ℕ

namespace MersenneTwist

abbrev N : ℕ := 624

abbrev M : ℕ := 397

def matrixA : UInt64 := 0x9908b0df

def upperMask : UInt64 := 0x80000000

def lowerMask : UInt64 := 0x7fffffff

/-! ### Seeds -/

/-- A word of `init_genrand`, made of the one before it. -/
def nextSeedWord (word : UInt64) (mti : ℕ) : UInt64 :=
  ((1812433253 : UInt64) * (word ^^^ (word >>> 30)) + UInt64.ofNat mti) &&& 0xffffffff

/-- One round of the loop of `init_genrand`. -/
def seedAt (mt : Vector UInt64 N) (i : Fin (N - 1)) : Vector UInt64 N :=
  mt.set i.succ (nextSeedWord (mt.get i.castSucc) (i + 1))

/-- `init_genrand`. -/
def initGenrand (g : MersenneTwist) (s : UInt64) : MersenneTwist where
  mt := (List.finRange (N - 1)).foldl seedAt (g.mt.set 0 (s &&& 0xffffffff))
  mti := N

/-- The constructor, on memory nobody has written. -/
def new (mt : Vector UInt64 N) (time : UInt64) : MersenneTwist :=
  initGenrand { mt, mti := 0 } time

/-- The variables of the two loops of `init_by_array`. -/
structure Cursor where
  mt : Vector UInt64 N
  i : ℕ
  j : ℕ

/-- A word is mixed with the one before it, and the index goes on. The first word is a copy
of the last one whenever the index comes round. -/
def Cursor.mix (c : Cursor) (factor : UInt64) (change : UInt64 → UInt64) : Option Cursor := do
  let here ← c.mt[c.i]?
  let before ← c.mt[c.i - 1]?
  let word := change (here ^^^ ((before ^^^ (before >>> 30)) * factor)) &&& 0xffffffff
  let mt := c.mt.setIfInBounds c.i word
  if c.i + 1 ≥ N then some { c with mt := mt.set 0 (mt.get (Fin.last 623)), i := 1 }
  else some { c with mt, i := c.i + 1 }

/-- The first loop of `init_by_array`, which goes round the key as well. -/
def keyLoop (key : List UInt64) : ℕ → Cursor → Option Cursor
  | 0, c => some c
  | k + 1, c => do
    let word ← key[c.j]?
    let c ← c.mix 1664525 fun here => here + word + UInt64.ofNat c.j
    keyLoop key k { c with j := if c.j + 1 ≥ key.length then 0 else c.j + 1 }

/-- The second loop of `init_by_array`. -/
def indexLoop : ℕ → Cursor → Option Cursor
  | 0, c => some c
  | k + 1, c => do
    let c ← c.mix 1566083941 fun here => here - UInt64.ofNat c.i
    indexLoop k c

/-- `init_by_array`. An index outside of an array is `none`. -/
def initByArray (g : MersenneTwist) (key : List UInt64) : Option MersenneTwist := do
  let g := g.initGenrand 19650218
  let c ← keyLoop key (max N key.length) { mt := g.mt, i := 1, j := 0 }
  let c ← indexLoop (N - 1) c
  some { g with mt := c.mt.set 0 0x80000000 }

/-! ### Numbers -/

/-- `mag01[y & 1]`. -/
def mag01 (y : UInt64) : UInt64 := if y &&& 1 = 0 then 0 else matrixA

/-- The word 624 places on. -/
def twist (here next tap : UInt64) : UInt64 :=
  let y := (here &&& upperMask) ||| (next &&& lowerMask)
  tap ^^^ (y >>> 1) ^^^ mag01 y

/-- The body of the loops of `genrand_int32`. -/
def twistAt (mt : Vector UInt64 N) (kk next tap : Fin N) : Vector UInt64 N :=
  mt.set kk (twist (mt.get kk) (mt.get next) (mt.get tap))

/-- A round of the first loop. -/
def twistFirst (mt : Vector UInt64 N) (kk : Fin (N - M)) : Vector UInt64 N :=
  twistAt mt (kk.castLE (by decide)) (kk.succ.castLE (by decide)) ((kk.addNat M).castLE (by decide))

/-- A round of the second loop, in which `kk` is `N - M + i`: from here on the tap is a word
of the new block. -/
def twistSecond (mt : Vector UInt64 N) (i : Fin (M - 1)) : Vector UInt64 N :=
  twistAt mt ((i.natAdd (N - M)).castLE (by decide)) ((i.succ.natAdd (N - M)).castLE (by decide))
    (i.castLE (by decide))

/-- The block of `genrand_int32`, which makes the next words. -/
def generate (mt : Vector UInt64 N) : Vector UInt64 N :=
  let mt := (List.finRange (N - M)).foldl twistFirst mt
  let mt := (List.finRange (M - 1)).foldl twistSecond mt
  twistAt mt ⟨N - 1, by decide⟩ 0 ⟨M - 1, by decide⟩

/-- The tempering at the end of `genrand_int32`. -/
def temper (y : UInt64) : UInt64 :=
  let y := y ^^^ (y >>> 11)
  let y := y ^^^ ((y <<< 7) &&& 0x9d2c5680)
  let y := y ^^^ ((y <<< 15) &&& 0xefc60000)
  y ^^^ (y >>> 18)

/-- `genrand_int32`. -/
def genrandInt32 (g : MersenneTwist) : Option (UInt64 × MersenneTwist) := do
  let g :=
    if g.mti ≥ N then
      let g := if g.mti = N + 1 then g.initGenrand 5489 else g
      { mt := generate g.mt, mti := 0 }
    else g
  let y ← g.mt[g.mti]?
  some (temper y, { g with mti := g.mti + 1 })

/-- The first `n` numbers. -/
def genrands : ℕ → MersenneTwist → Option (List UInt64 × MersenneTwist)
  | 0, g => some ([], g)
  | n + 1, g => do
    let (y, g) ← g.genrandInt32
    let (ys, g) ← genrands n g
    some (y :: ys, g)

/-! ### The stream -/

/-- The words of `init_genrand`. -/
def seedWords (s : UInt64) : ℕ → UInt64
  | 0 => s &&& 0xffffffff
  | i + 1 => nextSeedWord (seedWords s i) (i + 1)

/-- The words of the generator after a seed, as a stream. -/
def words (s : UInt64) : ℕ → UInt64 := stream twist N M (seedWords s)

theorem words_add (s : UInt64) (k : ℕ) :
    words s (k + N) = twist (words s k) (words s (k + 1)) (words s (k + M)) :=
  stream_add (by decide) (by decide) k

/-- The array has the words of the seed up to the place `c`. -/
def Seeded (s : UInt64) (c : ℕ) (mt : Vector UInt64 N) : Prop :=
  ∀ (i : ℕ) (hi : i < N), i ≤ c → mt[i] = seedWords s i

theorem Seeded.seedAt {s : UInt64} {mt : Vector UInt64 N} {i : Fin (N - 1)}
    (h : Seeded s i mt) : Seeded s (i + 1) (seedAt mt i) := by
  intro j hj hle
  rw [MersenneTwist.seedAt, Vector.getElem_set]
  split
  · next heq =>
    obtain rfl : i.val + 1 = j := heq
    exact congrArg (fun word => nextSeedWord word (i + 1))
      (h i (Nat.lt_of_succ_lt hj) (Nat.le_refl i))
  · next hne =>
    have hne' : i.val + 1 ≠ j := hne
    exact h j hj (by omega)

theorem seeded_initGenrand (g : MersenneTwist) (s : UInt64) :
    Seeded s (N - 1) (g.initGenrand s).mt := by
  have hzero : Seeded s 0 (g.mt.set 0 (s &&& 0xffffffff)) := by
    intro i hi hle
    obtain rfl : i = 0 := Nat.le_zero.mp hle
    exact Vector.getElem_set_self _
  dsimp only [initGenrand]
  exact foldl_finRange (P := Seeded s) (fun mt i h => h.seedAt) hzero

/-- The seed has filled the array with the first words. -/
theorem holds_initGenrand (g : MersenneTwist) (s : UInt64) :
    Holds (words s) 0 0 (g.initGenrand s).mt := by
  intro i hi
  rw [seeded_initGenrand g s i hi (Nat.le_sub_one_of_lt hi), if_neg (Nat.not_lt_zero i),
    Nat.zero_add, Nat.add_zero, words, stream_of_lt hi]

/-- A round of the loops overwrites one word. -/
theorem twistAt_eq_advance (mt : Vector UInt64 N) {kk next tap : Fin N}
    (hnext : next.val = (kk.val + 1) % N) (htap : tap.val = (kk.val + M) % N) :
    twistAt mt kk next tap = advance twist M mt kk := by
  obtain rfl : next = ⟨(kk.val + 1) % N, Nat.mod_lt _ kk.pos⟩ := Fin.ext hnext
  obtain rfl : tap = ⟨(kk.val + M) % N, Nat.mod_lt _ kk.pos⟩ := Fin.ext htap
  rfl

theorem twistFirst_eq (mt : Vector UInt64 N) (kk : Fin (N - M)) :
    twistFirst mt kk =
      advance twist M mt ⟨0 + kk, by have := kk.isLt; simp only [N, M] at *; omega⟩ := by
  have hlt := kk.isLt
  refine (twistAt_eq_advance mt ?_ ?_).trans (congrArg _ (Fin.ext ?_)) <;>
    simp only [N, M, Fin.val_castLE, Fin.val_succ, Fin.val_addNat] at * <;> omega

theorem twistSecond_eq (mt : Vector UInt64 N) (i : Fin (M - 1)) :
    twistSecond mt i =
      advance twist M mt ⟨N - M + i, by have := i.isLt; simp only [N, M] at *; omega⟩ := by
  have hlt := i.isLt
  refine (twistAt_eq_advance mt ?_ ?_).trans (congrArg _ (Fin.ext ?_)) <;>
    simp only [N, M, Fin.val_castLE, Fin.val_succ, Fin.val_natAdd] at * <;> omega

/-- **The block in place is that of the recurrence.** -/
theorem holds_generate {x : ℕ → UInt64}
    (hx : ∀ k, x (k + N) = twist (x k) (x (k + 1)) (x (k + M))) {base : ℕ} {mt : Vector UInt64 N}
    (h : Holds x base 0 mt) : Holds x (base + N) 0 (generate mt) := by
  have hfirst := h.foldl hx (by decide) (by decide) (by decide) (fun mt kk => twistFirst_eq mt kk)
  have hsecond := hfirst.foldl hx (by decide) (by decide) (by decide)
    (fun mt i => (twistSecond_eq mt i).trans (congrArg _ (Fin.ext (by simp))))
  rw [generate, twistAt_eq_advance _ (by decide) (by decide)]
  exact (hsecond.advance hx (by decide) (by decide) (by decide)).wrap

/-- A word of an array that holds one window. -/
theorem get_of_holds {x : ℕ → UInt64} {base : ℕ} {mt : Vector UInt64 N} (h : Holds x base 0 mt)
    (i : Fin N) : mt.get i = x (base + i) := by
  have hi := h i i.isLt
  rwa [if_neg (Nat.not_lt_zero _), Nat.add_zero] at hi

/-- The generator holds a window of the words, and is to hand out the word `k`. -/
def Reads (x : ℕ → UInt64) (k : ℕ) (g : MersenneTwist) : Prop :=
  g.mti ≤ N ∧ ∃ base, base + g.mti = k ∧ Holds x base 0 g.mt

theorem reads_initGenrand (g : MersenneTwist) (s : UInt64) :
    Reads (words s) N (g.initGenrand s) :=
  ⟨Nat.le_refl N, 0, Nat.zero_add N, holds_initGenrand g s⟩

/-- A word that is there is handed out. -/
theorem genrandInt32_of_lt {g : MersenneTwist} (h : g.mti < N) :
    g.genrandInt32 = some (temper (g.mt.get ⟨g.mti, h⟩), { g with mti := g.mti + 1 }) := by
  rw [genrandInt32, if_neg (Nat.not_le.mpr h), Vector.getElem?_eq_getElem h]
  rfl

/-- Where all are handed out, the next block is made. The seed was set, so it is not set to
its default. -/
theorem genrandInt32_of_eq {g : MersenneTwist} (h : g.mti = N) :
    g.genrandInt32 = some (temper ((generate g.mt).get 0), { mt := generate g.mt, mti := 1 }) := by
  rw [genrandInt32, if_pos (Nat.le_of_eq h.symm), if_neg (by rw [h]; decide)]
  dsimp only
  rw [Vector.getElem?_eq_getElem (by decide)]
  rfl

/-- **One number**: the next word, tempered. -/
theorem Reads.genrandInt32 {x : ℕ → UInt64}
    (hx : ∀ k, x (k + N) = twist (x k) (x (k + 1)) (x (k + M))) {k : ℕ} {g : MersenneTwist}
    (h : Reads x k g) :
    ∃ g', g.genrandInt32 = some (temper (x k), g') ∧ Reads x (k + 1) g' := by
  obtain ⟨hle, base, rfl, hholds⟩ := h
  rcases Nat.eq_or_lt_of_le hle with heq | hlt
  · have hnext := holds_generate hx hholds
    refine ⟨{ mt := generate g.mt, mti := 1 }, ?_, (by decide : 1 ≤ N), base + N,
      by rw [heq], hnext⟩
    rw [genrandInt32_of_eq heq, heq, get_of_holds hnext]
    rfl
  · refine ⟨{ g with mti := g.mti + 1 }, ?_, hlt, base, rfl, hholds⟩
    rw [genrandInt32_of_lt hlt, get_of_holds hholds]

theorem Reads.genrands {x : ℕ → UInt64}
    (hx : ∀ k, x (k + N) = twist (x k) (x (k + 1)) (x (k + M))) (n : ℕ) {k : ℕ}
    {g : MersenneTwist} (h : Reads x k g) :
    ∃ g', genrands n g = some ((List.range n).map fun i => temper (x (k + i)), g') ∧
      Reads x (k + n) g' := by
  induction n generalizing k g with
  | zero => exact ⟨g, rfl, h⟩
  | succ n ih =>
    obtain ⟨g₁, hg₁, h₁⟩ := h.genrandInt32 hx
    obtain ⟨g', hg', h'⟩ := ih h₁
    refine ⟨g', ?_, by rwa [Nat.add_assoc, Nat.add_comm 1] at h'⟩
    have hshift : (List.range n).map (fun i => temper (x (k + 1 + i))) =
        (List.range n).map ((fun i => temper (x (k + i))) ∘ Nat.succ) := by
      refine List.map_congr_left fun i _ => congrArg (fun j => temper (x j)) ?_
      omega
    rw [MersenneTwist.genrands, hg₁]
    dsimp only [Option.bind_eq_bind, Option.bind_some]
    rw [hg', List.range_succ_eq_map, List.map_cons, List.map_map, hshift]
    rfl

/-- **The generator hands out the stream of a shift register.** For every content of the
memory, every seed and every number of calls, the blocks that are made in place give the
words of the recurrence one after another, each of them tempered. -/
theorem genrands_eq (mt : Vector UInt64 N) (time : UInt64) (n : ℕ) :
    ∃ g, genrands n (new mt time) =
      some ((List.range n).map fun k => temper (words time (N + k)), g) := by
  obtain ⟨g, hg, -⟩ := (reads_initGenrand { mt, mti := 0 } time).genrands (words_add time) n
  exact ⟨g, hg⟩

/-! ### Thirty-two bits -/

/-- The number fits thirty-two bits of an `unsigned long`. -/
def Fits32 (y : UInt64) : Prop := y.toNat < 2 ^ 32

theorem fits32_and (y : UInt64) : Fits32 (y &&& 0xffffffff) := by
  rw [Fits32, UInt64.toNat_and]
  exact Nat.lt_of_le_of_lt Nat.and_le_right (by decide)

theorem Fits32.xor {y z : UInt64} (hy : Fits32 y) (hz : Fits32 z) : Fits32 (y ^^^ z) := by
  rw [Fits32, UInt64.toNat_xor]
  exact Nat.xor_lt_two_pow hy hz

theorem Fits32.shiftRight {y : UInt64} (hy : Fits32 y) (n : UInt64) : Fits32 (y >>> n) := by
  rw [Fits32, UInt64.toNat_shiftRight]
  exact Nat.lt_of_le_of_lt (Nat.shiftRight_le _ _) hy

theorem Fits32.and {mask : UInt64} (hmask : Fits32 mask) (y : UInt64) : Fits32 (y &&& mask) := by
  rw [Fits32, UInt64.toNat_and]
  exact Nat.lt_of_le_of_lt Nat.and_le_right hmask

theorem Fits32.or {y z : UInt64} (hy : Fits32 y) (hz : Fits32 z) : Fits32 (y ||| z) := by
  rw [Fits32, UInt64.toNat_or]
  exact Nat.or_lt_two_pow hy hz

theorem fits32_nextSeedWord (word : UInt64) (mti : ℕ) : Fits32 (nextSeedWord word mti) :=
  fits32_and _

theorem fits32_seedWords (s : UInt64) (i : ℕ) : Fits32 (seedWords s i) := by
  cases i with
  | zero => exact fits32_and _
  | succ i => exact fits32_nextSeedWord _ _

theorem fits32_mag01 (y : UInt64) : Fits32 (mag01 y) := by
  rw [mag01]
  split
  · exact (by decide : (0 : ℕ) < 2 ^ 32)
  · exact (by decide : matrixA.toNat < 2 ^ 32)

theorem fits32_twist {here next tap : UInt64} (htap : Fits32 tap) :
    Fits32 (twist here next tap) := by
  have hupper : Fits32 (here &&& upperMask) := Fits32.and (by decide : upperMask.toNat < 2 ^ 32) _
  have hlower : Fits32 (next &&& lowerMask) := Fits32.and (by decide : lowerMask.toNat < 2 ^ 32) _
  exact (htap.xor ((hupper.or hlower).shiftRight 1)).xor (fits32_mag01 _)

theorem Fits32.xor_shiftLeft {y mask : UInt64} (hy : Fits32 y) (hmask : Fits32 mask) (n : UInt64) :
    Fits32 (y ^^^ ((y <<< n) &&& mask)) :=
  hy.xor (hmask.and (y <<< n))

theorem Fits32.temper {y : UInt64} (hy : Fits32 y) : Fits32 (temper y) := by
  have h₁ : Fits32 (y ^^^ (y >>> 11)) := hy.xor (hy.shiftRight 11)
  have h₂ := h₁.xor_shiftLeft (by decide : (0x9d2c5680 : UInt64).toNat < 2 ^ 32) 7
  have h₃ := h₂.xor_shiftLeft (by decide : (0xefc60000 : UInt64).toNat < 2 ^ 32) 15
  exact h₃.xor (h₃.shiftRight 18)

theorem fits32_words (s : UInt64) (k : ℕ) : Fits32 (words s k) :=
  stream_mem (by decide) (by decide) (fun i _ => fits32_seedWords s i)
    (fun _ _ _ _ _ htap => fits32_twist htap) k

/-- All words of the array fit thirty-two bits. -/
def Words32 (mt : Vector UInt64 N) : Prop := ∀ i : Fin N, Fits32 (mt.get i)

theorem Words32.set {mt : Vector UInt64 N} (h : Words32 mt) (i : Fin N) {word : UInt64}
    (hword : Fits32 word) : Words32 (mt.set i word) := by
  intro j
  have hset : (mt.set i word).get j = if i.val = j.val then word else mt.get j :=
    Vector.getElem_set i.isLt j.isLt
  rw [hset]
  split
  · exact hword
  · exact h j

theorem words32_initGenrand (g : MersenneTwist) (s : UInt64) : Words32 (g.initGenrand s).mt := by
  intro i
  rw [get_of_holds (holds_initGenrand g s)]
  exact fits32_words s _

theorem Words32.twistAt {mt : Vector UInt64 N} (h : Words32 mt) (kk next tap : Fin N) :
    Words32 (twistAt mt kk next tap) :=
  h.set kk (fits32_twist (h tap))

theorem Words32.generate {mt : Vector UInt64 N} (h : Words32 mt) : Words32 (generate mt) := by
  have hfirst : Words32 ((List.finRange (N - M)).foldl twistFirst mt) :=
    foldl_finRange (P := fun _ mt => Words32 mt) (fun mt _ hmt => hmt.twistAt _ _ _) h
  have hsecond : Words32 ((List.finRange (M - 1)).foldl twistSecond
      ((List.finRange (N - M)).foldl twistFirst mt)) :=
    foldl_finRange (P := fun _ mt => Words32 mt) (fun mt _ hmt => hmt.twistAt _ _ _) hfirst
  exact hsecond.twistAt _ _ _

/-! ### Every run of the generator -/

/-- No more words are handed out than there are, and they fit thirty-two bits. -/
structure WellFormed (g : MersenneTwist) : Prop where
  mti_le : g.mti ≤ N
  words : Words32 g.mt

theorem wellFormed_initGenrand (g : MersenneTwist) (s : UInt64) : (g.initGenrand s).WellFormed :=
  ⟨Nat.le_refl N, words32_initGenrand g s⟩

theorem WellFormed.genrandInt32 {g : MersenneTwist} (h : g.WellFormed) :
    ∃ y g', g.genrandInt32 = some (y, g') ∧ Fits32 y ∧ g'.WellFormed := by
  rcases Nat.eq_or_lt_of_le h.mti_le with heq | hlt
  · have hnext := h.words.generate
    exact ⟨_, _, genrandInt32_of_eq heq, (hnext 0).temper, (by decide : 1 ≤ N), hnext⟩
  · exact ⟨_, _, genrandInt32_of_lt hlt, (h.words _).temper, hlt, h.words⟩

/-- The index of a loop of `init_by_array` is never that of the first word. -/
structure Cursor.InBounds (c : Cursor) : Prop where
  pos : 0 < c.i
  lt : c.i < N
  words : Words32 c.mt

/-- **One round**: the index stays within the array, and the other one is not touched. -/
theorem Cursor.InBounds.mix {c : Cursor} (h : c.InBounds) (factor : UInt64)
    (change : UInt64 → UInt64) : ∃ c', c.mix factor change = some c' ∧ c'.InBounds ∧ c'.j = c.j := by
  have hbefore : c.i - 1 < N := Nat.lt_of_le_of_lt (Nat.sub_le _ _) h.lt
  have hset : ∀ word, Fits32 word → Words32 (c.mt.setIfInBounds c.i word) := by
    intro word hword j
    have hset : (c.mt.setIfInBounds c.i word).get j = if c.i = j.val then word else c.mt.get j :=
      Vector.getElem_setIfInBounds j.isLt
    rw [hset]
    split
    · exact hword
    · exact h.words j
  rw [Cursor.mix, Vector.getElem?_eq_getElem h.lt, Vector.getElem?_eq_getElem hbefore]
  dsimp only [Option.bind_eq_bind, Option.bind_some]
  split
  · exact ⟨_, rfl, ⟨Nat.one_pos, (by decide : 1 < N),
      (hset _ (fits32_and _)).set 0 (hset _ (fits32_and _) (Fin.last 623))⟩, rfl⟩
  · next hlt => exact ⟨_, rfl, ⟨Nat.succ_pos _, Nat.not_le.mp hlt, hset _ (fits32_and _)⟩, rfl⟩

theorem Cursor.InBounds.keyLoop {key : List UInt64} (k : ℕ) {c : Cursor} (h : c.InBounds)
    (hj : c.j < key.length) : ∃ c', keyLoop key k c = some c' ∧ c'.InBounds := by
  induction k generalizing c with
  | zero => exact ⟨c, rfl, h⟩
  | succ k ih =>
    obtain ⟨c₁, hc₁, h₁, hj₁⟩ := h.mix 1664525 fun here => here + key[c.j] + UInt64.ofNat c.j
    rw [MersenneTwist.keyLoop, List.getElem?_eq_getElem hj]
    dsimp only [Option.bind_eq_bind, Option.bind_some]
    rw [hc₁]
    refine ih (c := { c₁ with j := _ }) ⟨h₁.pos, h₁.lt, h₁.words⟩ ?_
    dsimp only
    split
    · exact Nat.lt_of_le_of_lt (Nat.zero_le _) hj
    · next hlt => exact Nat.not_le.mp hlt

theorem Cursor.InBounds.indexLoop (k : ℕ) {c : Cursor} (h : c.InBounds) :
    ∃ c', indexLoop k c = some c' ∧ c'.InBounds := by
  induction k generalizing c with
  | zero => exact ⟨c, rfl, h⟩
  | succ k ih =>
    obtain ⟨c₁, hc₁, h₁, -⟩ := h.mix 1566083941 fun here => here - UInt64.ofNat c.i
    rw [MersenneTwist.indexLoop, hc₁]
    exact ih h₁

/-- A key with a word in it is gone through without leaving either array. -/
theorem exists_initByArray (g : MersenneTwist) {key : List UInt64} (hkey : key ≠ []) :
    ∃ g', g.initByArray key = some g' ∧ g'.WellFormed := by
  rw [initByArray]
  obtain ⟨hle, hwords⟩ := wellFormed_initGenrand g 19650218
  generalize g.initGenrand 19650218 = g₁ at hle hwords
  have hstart : Cursor.InBounds { mt := g₁.mt, i := 1, j := 0 } :=
    ⟨Nat.one_pos, (by decide : 1 < N), hwords⟩
  obtain ⟨c₁, hc₁, h₁⟩ := hstart.keyLoop (max N key.length) (List.length_pos_of_ne_nil hkey)
  obtain ⟨c₂, hc₂, h₂⟩ := h₁.indexLoop (N - 1)
  refine ⟨{ g₁ with mt := c₂.mt.set 0 0x80000000 }, ?_, hle,
    h₂.words.set 0 (by decide : (0x80000000 : UInt64).toNat < 2 ^ 32)⟩
  rw [hc₁]
  dsimp only [Option.bind_eq_bind, Option.bind_some]
  rw [hc₂]
  rfl

/-- Of an empty key the first word is read all the same. -/
theorem initByArray_nil (g : MersenneTwist) : g.initByArray [] = none := by
  rw [initByArray]
  rfl

/-- What can be asked of a generator. -/
inductive Call
  | initGenrand (s : UInt64)
  | initByArray (key : List UInt64)
  | genrandInt32

/-- One call, on a generator and the numbers it has handed out. -/
def step (s : MersenneTwist × List UInt64) : Call → Option (MersenneTwist × List UInt64)
  | .initGenrand x => some (s.1.initGenrand x, s.2)
  | .initByArray key => (s.1.initByArray key).map fun g => (g, s.2)
  | .genrandInt32 => s.1.genrandInt32.map fun r => (r.2, s.2 ++ [r.1])

/-- The calls of a run, from the constructor on. -/
def generatorRun (mt : Vector UInt64 N) (time : UInt64) (calls : List Call) :
    Option (MersenneTwist × List UInt64) :=
  Runs.run step (new mt time, []) calls

/-- A generator that is well formed has handed out numbers of thirty-two bits. -/
def Sound (s : MersenneTwist × List UInt64) : Prop := s.1.WellFormed ∧ ∀ y ∈ s.2, Fits32 y

/-- Only a key without a word is refused. -/
def Call.HasKey : Call → Prop
  | .initByArray key => key ≠ []
  | _ => True

theorem hasKey_of_step {s s' : MersenneTwist × List UInt64} {call : Call}
    (h : step s call = some s') : call.HasKey := by
  cases call with
  | initGenrand x => trivial
  | initByArray key =>
    rintro rfl
    rw [step, initByArray_nil] at h
    cases h
  | genrandInt32 => trivial

theorem Sound.step {s : MersenneTwist × List UInt64} (h : Sound s) {call : Call}
    (hkey : call.HasKey) : ∃ s', step s call = some s' ∧ Sound s' := by
  cases call with
  | initGenrand x => exact ⟨_, rfl, wellFormed_initGenrand _ _, h.2⟩
  | initByArray key =>
    obtain ⟨g, hg, hwell⟩ := exists_initByArray s.1 hkey
    refine ⟨(g, s.2), ?_, hwell, h.2⟩
    rw [MersenneTwist.step, hg]
    rfl
  | genrandInt32 =>
    obtain ⟨y, g, hg, hy, hwell⟩ := h.1.genrandInt32
    refine ⟨(g, s.2 ++ [y]), ?_, hwell, ?_⟩
    · rw [MersenneTwist.step, hg]
      rfl
    · intro z hz
      rcases List.mem_append.mp hz with hz | hz
      · exact h.2 z hz
      · rwa [List.mem_singleton.mp hz]

/-- **The generator in every run.** For every content of the memory, every time and every
sequence of calls, no call reads or writes outside of an array if and only if none of them
has an empty key; and then the default seed is never taken, and all that was handed out, and
all that is to be, fits the `uint32` it is cut to. -/
theorem generatorRun_iff (mt : Vector UInt64 N) (time : UInt64) (calls : List Call) :
    (∃ s, generatorRun mt time calls = some s ∧ Sound s) ↔ ∀ call ∈ calls, call.HasKey := by
  have hall : ∀ s, Sound s →
      ((∃ s', Runs.run step s calls = some s' ∧ Sound s') ↔ ∀ call ∈ calls, call.HasKey) := by
    induction calls with
    | nil => exact fun s hs => iff_of_true ⟨s, rfl, hs⟩ (List.forall_mem_nil _)
    | cons call calls ih =>
      intro s hs
      rw [List.forall_mem_cons]
      constructor
      · rintro ⟨s', hrun, hs'⟩
        rw [Runs.run_cons] at hrun
        obtain ⟨s₁, hstep, hrun⟩ := Option.bind_eq_some_iff.mp hrun
        have hkey := hasKey_of_step hstep
        obtain ⟨s₂, hstep', h₂⟩ := hs.step hkey
        obtain rfl := Option.some.inj (hstep.symm.trans hstep')
        exact ⟨hkey, (ih s₁ h₂).mp ⟨s', hrun, hs'⟩⟩
      · rintro ⟨hkey, hkeys⟩
        obtain ⟨s₁, hstep, h₁⟩ := hs.step hkey
        rw [Runs.run_cons_of_step hstep]
        exact (ih s₁ h₁).mpr hkeys
  exact hall _ ⟨wellFormed_initGenrand _ _, List.forall_mem_nil _⟩

/-! ### Numbers that tell others -/

/-- What undoes the tempering. -/
def untemper (y : UInt64) : UInt64 :=
  let y := y ^^^ (y >>> 18)
  let y := y ^^^ ((y <<< 15) &&& 0xefc60000)
  -- seven more digits come out right in each line
  let z := y ^^^ ((y <<< 7) &&& 0x9d2c5680)
  let z := y ^^^ ((z <<< 7) &&& 0x9d2c5680)
  let z := y ^^^ ((z <<< 7) &&& 0x9d2c5680)
  let z := y ^^^ ((z <<< 7) &&& 0x9d2c5680)
  z ^^^ (z >>> 11) ^^^ (z >>> 22)

theorem additive_temper :
    XorLinear.Additive fun v : BitVec 64 => (temper (.ofBitVec v)).toBitVec := by
  have h₁ := XorLinear.Additive.id.xor (XorLinear.Additive.id (n := 64) |>.shiftRight 11)
  have h₂ := h₁.xor ((h₁.shiftLeft 7).and 0x9d2c5680)
  have h₃ := h₂.xor ((h₂.shiftLeft 15).and 0xefc60000)
  exact h₃.xor (h₃.shiftRight 18)

theorem additive_untemper :
    XorLinear.Additive fun v : BitVec 64 => (untemper (.ofBitVec v)).toBitVec := by
  have h₁ := XorLinear.Additive.id.xor (XorLinear.Additive.id (n := 64) |>.shiftRight 18)
  have h₂ := h₁.xor ((h₁.shiftLeft 15).and 0xefc60000)
  have h₃ := h₂.xor ((h₂.shiftLeft 7).and 0x9d2c5680)
  have h₄ := h₂.xor ((h₃.shiftLeft 7).and 0x9d2c5680)
  have h₅ := h₂.xor ((h₄.shiftLeft 7).and 0x9d2c5680)
  have h₆ := h₂.xor ((h₅.shiftLeft 7).and 0x9d2c5680)
  exact (h₆.xor (h₆.shiftRight 11)).xor (h₆.shiftRight 22)

/-- **Tempering can be undone**: it is enough to see it on the powers of two. -/
theorem untemper_temper {y : UInt64} (hy : Fits32 y) : untemper (temper y) = y := by
  have hbasis : ∀ i < 32, (untemper (temper (.ofBitVec (BitVec.twoPow 64 i)))).toBitVec =
      BitVec.twoPow 64 i := by decide
  have hcomp := additive_untemper.comp additive_temper
  exact UInt64.toBitVec_inj.mp
    (XorLinear.eq_of_basis (y := y.toBitVec) hcomp XorLinear.Additive.id (by decide) hbasis hy)

/-- The number that follows from three that were handed out before it. -/
def predict (here next tap : UInt64) : UInt64 :=
  temper (twist (untemper here) (untemper next) (untemper tap))

theorem getD_map_range {α : Type*} (f : ℕ → α) {n i : ℕ} (hi : i < n) (d : α) :
    ((List.range n).map f).getD i d = f i := by
  rw [List.getD_eq_getElem?_getD, List.getElem?_map, List.getElem?_range hi]
  rfl

/-- **Every number from the 625th on is told by three before it**, for every content of the
memory and every time the generator was seeded with: the one 624 places before it, the one
after that, and the one 397 places after that. -/
theorem genrands_predicted (mt : Vector UInt64 N) (time : UInt64) (n : ℕ) :
    ∃ ys g, genrands n (new mt time) = some (ys, g) ∧ ys.length = n ∧
      ∀ k, k + N < n →
        ys.getD (k + N) 0 = predict (ys.getD k 0) (ys.getD (k + 1) 0) (ys.getD (k + M) 0) := by
  obtain ⟨g, hg⟩ := genrands_eq mt time n
  refine ⟨_, g, hg, by rw [List.length_map, List.length_range], ?_⟩
  intro k hk
  have hget : ∀ i, i ≤ k + N →
      ((List.range n).map fun k => temper (words time (N + k))).getD i 0 =
        temper (words time (N + i)) := by
    intro i hi
    rw [getD_map_range _ (Nat.lt_of_le_of_lt hi hk)]
  rw [hget _ (Nat.le_refl _), hget k (Nat.le_add_right _ _),
    hget (k + 1) (Nat.add_le_add_left (by decide) _),
    hget (k + M) (Nat.add_le_add_left (by decide) _), predict,
    untemper_temper (fits32_words _ _), untemper_temper (fits32_words _ _),
    untemper_temper (fits32_words _ _)]
  simp only [← Nat.add_assoc]
  rw [words_add]

end MersenneTwist

end Morfeusz
