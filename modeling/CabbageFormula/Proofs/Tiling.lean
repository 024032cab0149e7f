import CabbageFormula.Proofs.Places

/-!
# How lexemes tile a text

The lexemes of a text, described without the cut that finds them: their places tile the text, each
number is a run of digits that is as long as it can be, and everything else is one character.  There
is just one list of lexemes like that.

* `Tiles` — places that follow one another without a gap.
* `Token.ofChar`, `Carries` — the token of a single character, and what a run of digits carries.
* `IsLexing` — **what the lexemes of a text are**.
* `isLexing_scan`, `IsLexing.eq_scan` — a text is scanned into such lexemes, and has no others.
* `pieces_append_iff`, `Lexeme.scan_append_iff` — two texts are scanned apart exactly if no digit
  meets a digit.
* `lexemes_tile` — all of this.
-/

namespace CabbageFormula

/-! ## Tiles -/

/-- **Lexemes tile a stretch of bytes**: the first starts where it does, each of the others where
the one before it stops, and the last stops where it does. -/
def Tiles : Nat → List Lexeme → Nat → Prop
  | start, [], stop => start = stop
  | start, l :: ls, stop => l.place.start = start ∧ Tiles l.place.stop ls stop

/-- The characters of a lexeme. -/
def Lexeme.chars (l : Lexeme) : List Char := l.place.slice.toList

/-- A lexeme that starts so many bytes further on. -/
def Lexeme.shift (n : Nat) (l : Lexeme) : Lexeme :=
  ⟨l.token, ⟨n + l.place.start, l.place.slice⟩⟩

lemma Lexeme.stop_eq (l : Lexeme) : l.place.stop = l.place.start + width l.chars := by
  rw [Place.stop, Lexeme.chars, width_toList]

/-- **A text can be split in one way only** behind a number of bytes. -/
lemma append_inj_of_width {a b c d : List Char} (h : a ++ b = c ++ d) (hw : width a = width c) :
    a = c ∧ b = d := by
  have hnone : ∀ {u v e : List Char}, u = v ++ e → width u = width v → e = [] := by
    rintro u v e rfl hw
    by_contra hne
    have hpos := width_pos hne
    rw [width_append] at hw
    omega
  rcases List.append_eq_append_iff.mp h with ⟨e, hc, hb⟩ | ⟨e, ha, hd⟩
  · obtain rfl := hnone hc hw.symm
    exact ⟨by rw [hc, List.append_nil], hb⟩
  · obtain rfl := hnone ha hw
    exact ⟨by rw [ha, List.append_nil], hd.symm⟩

namespace Tiles

variable {s : String} {ls before after : List Lexeme} {l : Lexeme} {start stop : Nat}

/-- A tile starts behind all the characters of those before it. -/
lemma start_eq (h : Tiles start (before ++ l :: after) stop) :
    l.place.start = start + width (before.flatMap Lexeme.chars) := by
  induction before generalizing start with
  | nil => exact h.1
  | cons k before ih =>
      obtain ⟨hk, hrest⟩ := h
      rw [ih hrest, k.stop_eq, hk, List.flatMap_cons, width_append, Nat.add_assoc]

/-- **Tiles of a text spell it out.** -/
theorem flatMap_chars {front rest : List Char} (h : Tiles (width front) ls s.utf8ByteSize)
    (hs : s.toList = front ++ rest) (hin : ∀ l ∈ ls, l.place.In s) :
    ls.flatMap Lexeme.chars = rest := by
  induction ls generalizing front rest with
  | nil =>
      by_contra hne
      have hpos : 0 < width rest := width_pos (Ne.symm hne)
      have hend : width front = s.utf8ByteSize := h
      rw [← width_toList, hs, width_append] at hend
      omega
  | cons l ls ih =>
      obtain ⟨hstart, htail⟩ := h
      obtain ⟨f, b, hsplit, hf⟩ := hin l (by simp)
      have hchars : front ++ rest = f.toList ++ (l.chars ++ b.toList) := by
        rw [← hs, hsplit, String.toList_append, String.toList_append, List.append_assoc]
        rfl
      have hwidth : width front = width f.toList := by
        rw [← hstart, hf, width_toList]
      obtain ⟨rfl, rfl⟩ := append_inj_of_width hchars hwidth
      rw [l.stop_eq, hstart, ← width_append] at htail
      have hs' : s.toList = f.toList ++ l.chars ++ b.toList := by
        rw [hs, List.append_assoc]
      rw [List.flatMap_cons, ih htail hs' fun k hk => hin k (by simp [hk])]

end Tiles

namespace Lexeme

lemma tiles_locate (start : Nat) (ps : List (List Char)) :
    Tiles start (locate start ps) (start + width ps.flatten) := by
  induction ps generalizing start with
  | nil => rfl
  | cons p ps ih =>
      refine ⟨rfl, ?_⟩
      rw [List.flatten_cons, width_append, ← Nat.add_assoc]
      exact ih (start + width p)

lemma map_chars_locate (start : Nat) (ps : List (List Char)) :
    (locate start ps).map chars = ps := by
  induction ps generalizing start with
  | nil => rfl
  | cons p ps ih =>
      have hp : (ofPiece start p).chars = p := String.toList_ofList
      rw [locate_cons, List.map_cons, ih, hp]

/-- Tiles with the tokens of their characters are located pieces. -/
lemma eq_locate_of_tiles {ls : List Lexeme} {start stop : Nat} (h : Tiles start ls stop)
    (htoken : ∀ l ∈ ls, l.token = Token.ofPiece l.chars) :
    ls = locate start (ls.map chars) := by
  induction ls generalizing start with
  | nil => rfl
  | cons l ls ih =>
      obtain ⟨rfl, htail⟩ := h
      have hl : l = ofPiece l.place.start l.chars := by
        rw [ofPiece, ← htoken l (by simp), chars, String.ofList_toList]
      have hrest := ih htail fun k hk => htoken k (by simp [hk])
      rw [List.map_cons, locate_cons, ← hl, ← hrest]

lemma locate_add (n start : Nat) (ps : List (List Char)) :
    locate (n + start) ps = (locate start ps).map (shift n) := by
  induction ps generalizing start with
  | nil => rfl
  | cons p ps ih =>
      rw [locate_cons, locate_cons, stop_ofPiece, stop_ofPiece, Nat.add_assoc, ih]
      rfl

end Lexeme

/-! ## What lexemes are -/

/-- **The token of a character that is no digit.** -/
def Token.ofChar (c : Char) : Token :=
  if c = 'c' then .cabbage
  else if c = '+' then .sign .plus
  else if c = '-' then .sign .minus
  else .stray

/-- **What a run of digits carries**: its decimal value, if that is below `2 ^ 64`, and otherwise
nothing. -/
def Carries (ds : List Char) (n : Option UInt64) : Prop :=
  (∀ v, n = some v ↔ Numeral.value ds = v.toNat) ∧ (n = none ↔ 2 ^ 64 ≤ Numeral.value ds)

/-- **A run of digits that is as long as it can be**: the characters of a place are digits, at least
one, and no digit of the text stands directly before or behind them. -/
structure IsRun (s : String) (p : Place) : Prop where
  ne_nil : p.slice.toList ≠ []
  isDigit : ∀ c ∈ p.slice.toList, c.isDigit = true
  maximal : ∃ front back, s.toList = front ++ p.slice.toList ++ back ∧ p.start = width front ∧
    (∀ c ∈ front.getLast?, c.isDigit = false) ∧ ∀ c ∈ back.head?, c.isDigit = false

/-- **The lexemes of a text**, without a word on how they are found. -/
structure IsLexing (s : String) (ls : List Lexeme) : Prop where
  /-- They follow one another without a gap, from the first byte of the text to its last. -/
  tiles : Tiles 0 ls s.utf8ByteSize
  nonempty : ∀ l ∈ ls, l.place.start < l.place.stop
  /-- The text has what they say at their places, and these begin and end between characters. -/
  inside : ∀ l ∈ ls, l.place.In s
  number : ∀ l ∈ ls, ∀ n, l.token = .number n → IsRun s l.place ∧ Carries l.chars n
  other : ∀ l ∈ ls, (∀ n, l.token ≠ .number n) →
    ∃ c, l.chars = [c] ∧ c.isDigit = false ∧ l.token = Token.ofChar c

lemma carries_iff {ds : List Char} {n : Option UInt64} :
    Carries ds n ↔ n = Numeral.word? ds := by
  constructor
  · rintro ⟨hsome, hnone⟩
    cases hword : Numeral.word? ds with
    | some v => exact (hsome v).mpr (Numeral.word?_eq_some_iff.mp hword)
    | none => exact hnone.mpr (Numeral.word?_eq_none_iff.mp hword)
  · rintro rfl
    exact ⟨fun v => Numeral.word?_eq_some_iff, Numeral.word?_eq_none_iff⟩

lemma Token.ofPiece_singleton {c : Char} (h : c.isDigit = false) :
    ofPiece [c] = ofChar c := by
  rw [ofPiece, if_neg (by simp [h]), ofChar, Sign.ofChar?]
  split_ifs <;> rfl

/-! ## Where a text is cut -/

/-- **Two texts are cut apart** exactly if no digit meets a digit. -/
theorem pieces_append_iff {front back : List Char} :
    pieces (front ++ back) = pieces front ++ pieces back ↔
      ∀ x ∈ front.getLast?, ∀ y ∈ back.head?, (x.isDigit && y.isDigit) = false := by
  refine ⟨fun hcut x hx y hy => ?_, pieces_append⟩
  have hfront : front ≠ [] := by
    rintro rfl
    cases hx
  have hback : back ≠ [] := by
    rintro rfl
    cases hy
  -- the last piece of the one and the first of the other do not belong together
  have hchain := List.isChain_getLast_head_splitBy (fun a b : Char => a.isDigit && b.isDigit)
    (front ++ back)
  have hlast := List.getLast?_eq_some_getLast (l := pieces front) (List.splitBy_ne_nil.mpr hfront)
  have hhead := List.head?_eq_some_head (l := pieces back) (List.splitBy_ne_nil.mpr hback)
  rw [← pieces, hcut] at hchain
  obtain ⟨_, _, hmeet⟩ := (List.isChain_append.mp hchain).2.2 _ hlast _ hhead
  simp only [pieces, List.getLast_getLast_splitBy _ hfront, List.head_head_splitBy _ hback] at hmeet
  rw [← List.getLast_of_mem_getLast? hx, ← List.head_of_mem_head? hy]
  exact hmeet

/-- The rest of a text is cut as it is in the text. -/
lemma pieces_flatten_back {cs : List Char} {front back : List (List Char)}
    (h : pieces cs = front ++ back) : pieces back.flatten = back := by
  obtain ⟨-, hne, hchain, hcut⟩ := List.splitBy_eq_iff.mp h
  refine List.splitBy_eq_iff.mpr ⟨rfl, ?_, ?_, (List.isChain_append.mp hcut).2.1⟩
  · intro hmem
    exact hne (by simp [hmem])
  · intro p hp
    exact hchain p (by simp [hp])

/-- Between two pieces of a text no digit meets a digit. -/
lemma not_isDigit_meet {cs : List Char} {front back : List (List Char)}
    (h : pieces cs = front ++ back) :
    ∀ x ∈ front.flatten.getLast?, ∀ y ∈ back.flatten.head?, (x.isDigit && y.isDigit) = false := by
  rw [← pieces_append_iff, pieces_flatten_front h, pieces_flatten_back h, ← List.flatten_append,
    ← h, flatten_pieces]

/-! ## There are such lexemes -/

lemma tiles_scan (s : String) : Tiles 0 (Lexeme.scan s) s.utf8ByteSize := by
  have htiles := Lexeme.tiles_locate 0 (pieces s.toList)
  rw [Nat.zero_add, flatten_pieces, width_toList] at htiles
  exact htiles

/-- A literal among the pieces of a text is as long as it can be. -/
lemma isRun_of_pieces {s : String} {before after : List (List Char)} {k : Literal}
    (h : pieces s.toList = before ++ k.digits :: after) :
    IsRun s ⟨width before.flatten, String.ofList k.digits⟩ := by
  have hslice : (String.ofList k.digits).toList = k.digits := String.toList_ofList
  have hs : s.toList = before.flatten ++ k.digits ++ after.flatten := by
    rw [← flatten_pieces s.toList, h, List.flatten_append, List.flatten_cons, List.append_assoc]
  have hne : (String.ofList k.digits).toList ≠ [] := by
    rw [hslice]
    exact k.ne_nil
  have hdigits : ∀ c ∈ (String.ofList k.digits).toList, c.isDigit = true := by
    rw [hslice]
    exact k.isDigit
  refine ⟨hne, hdigits, before.flatten, after.flatten, ?_, rfl, ?_, ?_⟩
  · rw [hslice, hs]
  · intro x hx
    have hhead : k.digits.head k.ne_nil ∈ (k.digits :: after).flatten.head? := by
      rw [List.flatten_cons, List.head?_append_of_ne_nil _ k.ne_nil, List.head?_eq_some_head]
      rfl
    have hmeet := not_isDigit_meet h x hx _ hhead
    rw [k.isDigit _ (List.head_mem _), Bool.and_true] at hmeet
    exact hmeet
  · intro y hy
    have hcut : pieces s.toList = (before ++ [k.digits]) ++ after := by
      rw [h, List.append_assoc, List.singleton_append]
    have hlast : k.digits.getLast k.ne_nil ∈ (before ++ [k.digits]).flatten.getLast? := by
      rw [List.flatten_append, List.flatten_singleton, List.getLast?_append_of_ne_nil _ k.ne_nil,
        List.getLast?_eq_some_getLast]
      rfl
    have hmeet := not_isDigit_meet hcut _ hlast y hy
    rw [k.isDigit _ (List.getLast_mem _), Bool.true_and] at hmeet
    exact hmeet

/-- **A text is scanned into its lexemes.** -/
theorem isLexing_scan (s : String) : IsLexing s (Lexeme.scan s) := by
  have hpiece : ∀ l ∈ Lexeme.scan s, ∃ before p after, pieces s.toList = before ++ p :: after ∧
      IsPiece p ∧ l = Lexeme.ofPiece (width before.flatten) p := by
    intro l hl
    obtain ⟨front, back, hscan⟩ := List.append_of_mem hl
    obtain ⟨before, p, after, hpieces, -, rfl, -⟩ := Lexeme.exists_of_scan hscan
    have hmem : p ∈ pieces s.toList := by simp [hpieces]
    exact ⟨before, p, after, hpieces, isPiece_of_mem_pieces hmem, rfl⟩
  have hchars : ∀ n p, (Lexeme.ofPiece n p).chars = p := fun _ _ => String.toList_ofList
  refine ⟨tiles_scan s, ?_, ?_, ?_, ?_⟩
  · intro l hl
    obtain ⟨before, p, after, hpieces, -, rfl⟩ := hpiece l hl
    have hmem : p ∈ pieces s.toList := by simp [hpieces]
    have hpos : 0 < width p := width_pos (Lexeme.ne_nil_of_mem_pieces hmem)
    show width before.flatten < width before.flatten + width p
    omega
  · intro l hl
    obtain ⟨front, back, hscan⟩ := List.append_of_mem hl
    exact Lexeme.in_of_scan hscan
  · intro l hl n hn
    obtain ⟨before, p, after, hpieces, hform, rfl⟩ := hpiece l hl
    obtain ⟨k, rfl, hk⟩ := hform.eq_of_number hn
    rw [hchars, carries_iff]
    exact ⟨isRun_of_pieces hpieces, hk.symm⟩
  · intro l hl hother
    obtain ⟨before, p, after, -, hform, rfl⟩ := hpiece l hl
    cases hform with
    | literal k => exact absurd k.ofPiece_digits (hother _)
    | @single c hc => exact ⟨c, hchars _ _, hc, Token.ofPiece_singleton hc⟩

/-! ## There are no others -/

namespace IsLexing

variable {s : String} {ls : List Lexeme}

lemma chars_ne_nil (h : IsLexing s ls) {l : Lexeme} (hl : l ∈ ls) : l.chars ≠ [] := by
  intro hnil
  have hlt := h.nonempty l hl
  rw [l.stop_eq, hnil, width_nil] at hlt
  exact absurd hlt (Nat.lt_irrefl _)

lemma flatMap_chars (h : IsLexing s ls) : ls.flatMap Lexeme.chars = s.toList := by
  have htiles : Tiles (width []) ls s.utf8ByteSize := by
    rw [width_nil]
    exact h.tiles
  exact htiles.flatMap_chars rfl h.inside

/-- A lexeme is a literal or a single character, with the token of that. -/
lemma isPiece (h : IsLexing s ls) {l : Lexeme} (hl : l ∈ ls) :
    IsPiece l.chars ∧ l.token = Token.ofPiece l.chars := by
  by_cases hnumber : ∃ n, l.token = .number n
  · obtain ⟨n, hn⟩ := hnumber
    obtain ⟨hrun, hcarries⟩ := h.number l hl n hn
    let k : Literal := ⟨l.chars, hrun.ne_nil, hrun.isDigit⟩
    refine ⟨.literal k, ?_⟩
    rw [hn, carries_iff.mp hcarries, ← k.ofPiece_digits]
  · obtain ⟨c, hc, hdigit, htoken⟩ := h.other l hl (not_exists.mp hnumber)
    rw [hc, htoken, Token.ofPiece_singleton hdigit]
    exact ⟨.single hdigit, rfl⟩

/-- **No digit of a lexeme meets a digit of the next**: a number would not be as long as it can
be. -/
lemma not_meet (h : IsLexing s ls) {before after : List Lexeme} {k l : Lexeme}
    (hls : ls = before ++ k :: l :: after) :
    ∃ hk hl, ((k.chars.getLast hk).isDigit && (l.chars.head hl).isDigit) = false := by
  have hkmem : k ∈ ls := by simp [hls]
  have hlmem : l ∈ ls := by simp [hls]
  refine ⟨h.chars_ne_nil hkmem, h.chars_ne_nil hlmem, ?_⟩
  by_cases hnumber : ∃ n, k.token = .number n
  · obtain ⟨n, hn⟩ := hnumber
    obtain ⟨front, back, hs, hstart, -, hbehind⟩ := (h.number k hkmem n hn).1.maximal
    have htext := h.flatMap_chars
    have htiles := h.tiles
    rw [hls] at htext htiles
    rw [hs, List.flatMap_append, List.flatMap_cons, List.flatMap_cons, List.append_assoc] at htext
    rw [htiles.start_eq, Nat.zero_add] at hstart
    obtain ⟨-, hrest⟩ := append_inj_of_width htext hstart
    have hback : l.chars ++ after.flatMap Lexeme.chars = back := List.append_cancel_left hrest
    have hhead : l.chars.head (h.chars_ne_nil hlmem) ∈ back.head? := by
      rw [← hback, List.head?_append_of_ne_nil _ (h.chars_ne_nil hlmem), List.head?_eq_some_head]
      rfl
    rw [hbehind _ hhead, Bool.and_false]
  · obtain ⟨c, hc, hdigit, -⟩ := h.other k hkmem (not_exists.mp hnumber)
    simp only [hc, List.getLast_singleton, hdigit, Bool.false_and]

/-- **A text has no other lexemes** than those that it is scanned into. -/
theorem eq_scan (h : IsLexing s ls) : ls = Lexeme.scan s := by
  have hpieces : pieces s.toList = ls.map Lexeme.chars := by
    refine List.splitBy_eq_iff.mpr ⟨?_, ?_, ?_, ?_⟩
    · rw [← h.flatMap_chars, List.flatMap_def]
    · intro hnil
      obtain ⟨l, hl, hchars⟩ := List.mem_map.mp hnil
      exact h.chars_ne_nil hl hchars
    · intro p hp
      obtain ⟨l, hl, rfl⟩ := List.mem_map.mp hp
      exact (h.isPiece hl).1.isChain
    · rw [List.isChain_map, List.isChain_iff_forall_rel_of_append_cons_cons]
      intro k l before after hls
      exact h.not_meet hls
  have hlocated := Lexeme.eq_locate_of_tiles h.tiles fun l hl => (h.isPiece hl).2
  rw [Lexeme.scan, hpieces]
  exact hlocated

end IsLexing

/-! ## Texts that follow one another -/

/-- **A digit meets a digit** where one text ends and the next begins. -/
def MeetInDigits (a b : String) : Prop :=
  (∃ x ∈ a.toList.getLast?, x.isDigit = true) ∧ ∃ y ∈ b.toList.head?, y.isDigit = true

lemma not_meetInDigits_iff {a b : String} :
    ¬ MeetInDigits a b ↔
      ∀ x ∈ a.toList.getLast?, ∀ y ∈ b.toList.head?, (x.isDigit && y.isDigit) = false := by
  constructor
  · intro h x hx y hy
    rw [← Bool.not_eq_true, Bool.and_eq_true]
    rintro ⟨hxdigit, hydigit⟩
    exact h ⟨⟨x, hx, hxdigit⟩, y, hy, hydigit⟩
  · rintro h ⟨⟨x, hx, hxdigit⟩, y, hy, hydigit⟩
    have hmeet := h x hx y hy
    rw [hxdigit, hydigit] at hmeet
    cases hmeet

/-- **Two texts are scanned apart** exactly if no digit meets a digit. -/
theorem Lexeme.scan_append_iff {a b : String} :
    scan (a ++ b) = scan a ++ (scan b).map (shift a.utf8ByteSize) ↔ ¬ MeetInDigits a b := by
  have hshift : ∀ ps, (locate 0 ps).map (shift a.utf8ByteSize) =
      locate (0 + width (pieces a.toList).flatten) ps := by
    intro ps
    rw [flatten_pieces, width_toList, Nat.zero_add, ← locate_add, Nat.add_zero]
  rw [not_meetInDigits_iff, ← pieces_append_iff, ← String.toList_append, scan, scan, scan, hshift,
    ← locate_append]
  constructor
  · intro h
    rw [← map_chars_locate 0 (pieces (a ++ b).toList), h, map_chars_locate]
  · intro h
    rw [h]

/-- **Lexemes tile a text.**  The list of lexemes that a text is scanned into is the only one whose
places tile the text, from its first byte to its last and between characters, whose numbers are
runs of digits as long as they can be and carry their value if that is a word, and whose other
lexemes are single characters with the token of that character.  So the lexemes spell the text, no
two numbers are neighbours, and a text that is followed by another is scanned as the two are, the
second behind the bytes of the first, unless a digit meets a digit there. -/
theorem lexemes_tile :
    (∀ (s : String) (ls : List Lexeme), IsLexing s ls ↔ ls = Lexeme.scan s) ∧
    (∀ s : String, String.join ((Lexeme.scan s).map (·.place.slice)) = s ∧
      (Lexeme.scan s).IsChain fun k l =>
        ∀ m n, ¬ (k.token = .number m ∧ l.token = .number n)) ∧
    (∀ a b : String, Lexeme.scan (a ++ b) =
        Lexeme.scan a ++ (Lexeme.scan b).map (Lexeme.shift a.utf8ByteSize) ↔
      ¬ MeetInDigits a b) := by
  refine ⟨fun s ls => ⟨IsLexing.eq_scan, ?_⟩, fun s => ⟨?_, ?_⟩, fun a b => Lexeme.scan_append_iff⟩
  · rintro rfl
    exact isLexing_scan s
  · apply String.toList_inj.mp
    rw [← (isLexing_scan s).flatMap_chars, String.toList_join, List.flatMap_map]
    rfl
  · rw [List.isChain_iff_forall_rel_of_append_cons_cons]
    rintro k l before after hscan m n ⟨hk, hl⟩
    exact Lexeme.not_number_of_scan hscan hk hl

example : Lexeme.scan "-007é18446744073709551616" =
    [⟨.sign .minus, ⟨0, "-"⟩⟩, ⟨.number (some 7), ⟨1, "007"⟩⟩, ⟨.stray, ⟨4, "é"⟩⟩,
      ⟨.number none, ⟨6, "18446744073709551616"⟩⟩] := by
  decide +kernel

end CabbageFormula
