import CabbageFormula.Outcome
import CabbageFormula.Proofs.Wording

/-!
# The text of a trace

A trace is written as a sum: its entries one after the other, without a plus in front.  The text
has no separators, and yet nothing is lost in it.

* `inFull` — a trace with every sign, and `Entry.sign`, `Entry.shown`, the two parts of an entry.
* `Entry.shown_append_inj` — an entry ends where the next sign stands.
* `inFull_injective` — so the entries can be told from their texts.
* `withPlus`, `withPlus_dropPlus_inFull` — the plus that is left out in front can be put back.
* `Outcome.traceText_eq_iff`, `Outcome.head?_traceText` — the text of a trace, and how it begins.
-/

namespace CabbageFormula

/-! ## Runs of characters -/

/-- **A run of one class can be told from what follows it**, if that begins with none of the
class. -/
lemma append_inj_of_run {p : Char → Bool} {xs ys as bs : List Char} (hxs : ∀ c ∈ xs, p c = true)
    (hys : ∀ c ∈ ys, p c = true) (has : ∀ c ∈ as.head?, p c = false)
    (hbs : ∀ c ∈ bs.head?, p c = false) (h : xs ++ as = ys ++ bs) : xs = ys ∧ as = bs := by
  have hstop : ∀ {cs : List Char}, (∀ c ∈ cs.head?, p c = false) → cs.takeWhile p = [] := by
    intro cs hcs
    cases cs with
    | nil => rfl
    | cons c cs => simp [hcs c rfl]
  have hrun := congrArg (List.takeWhile p) h
  rw [List.takeWhile_append_of_pos hxs, List.takeWhile_append_of_pos hys, hstop has, hstop hbs,
    List.append_nil, List.append_nil] at hrun
  exact ⟨hrun, List.append_cancel_left (hrun ▸ h)⟩

namespace Numeral

lemma digits_injective : Function.Injective digits := by
  intro m n h
  rw [← value_digits m, h, value_digits]

/-- A number ends where no digit follows. -/
lemma digits_append_inj {v v' : UInt64} {as bs : List Char}
    (has : ∀ c ∈ as.head?, c.isDigit = false) (hbs : ∀ c ∈ bs.head?, c.isDigit = false)
    (h : digits v.toNat ++ as = digits v'.toNat ++ bs) : v = v' ∧ as = bs := by
  obtain ⟨hdigits, hrest⟩ := append_inj_of_run (fun _ => isDigit_of_mem_digits)
    (fun _ => isDigit_of_mem_digits) has hbs h
  exact ⟨UInt64.toNat_inj.mp (digits_injective hdigits), hrest⟩

lemma exists_head_digits (n : Nat) : ∃ c cs, digits n = c :: cs ∧ c.isDigit = true := by
  obtain ⟨c, cs, hcs⟩ := List.exists_cons_of_ne_nil (digits_ne_nil n)
  have hc : c ∈ digits n := by simp [hcs]
  exact ⟨c, cs, hcs, isDigit_of_mem_digits hc⟩

lemma digits_append_ne_cons {c : Char} (hc : c.isDigit = false) (n : Nat) (as bs : List Char) :
    digits n ++ as ≠ c :: bs := by
  obtain ⟨d, ds, hds, hd⟩ := exists_head_digits n
  intro h
  rw [hds, List.cons_append, List.cons.injEq] at h
  rw [h.1, hc] at hd
  cases hd

end Numeral

/-! ## Entries -/

namespace Entry

def sign : Entry → Sign
  | constant s _ => s
  | rolled s _ => s

/-- **What stands behind the sign** of an entry. -/
def shown : Entry → List Char
  | constant _ v => Numeral.digits v.toNat
  | rolled _ v => '[' :: (Numeral.digits v.toNat ++ [']'])

lemma toList_text (e : Entry) : e.text.toList = e.sign.char :: e.shown := by
  cases e <;> simp [sign, shown]

lemma exists_head_shown (e : Entry) :
    ∃ c cs, e.shown = c :: cs ∧ (c.isDigit = true ∨ c = '[') := by
  cases e with
  | constant s v =>
      obtain ⟨c, cs, hcs, hc⟩ := Numeral.exists_head_digits v.toNat
      exact ⟨c, cs, hcs, Or.inl hc⟩
  | rolled s v => exact ⟨'[', _, rfl, Or.inr rfl⟩

end Entry

/-! ## Traces with every sign -/

/-- **A trace in full**: its entries one after the other, each with its sign. -/
def inFull (entries : List Entry) : List Char := entries.flatMap fun e => e.text.toList

@[simp] lemma inFull_nil : inFull [] = [] := rfl

@[simp] lemma inFull_cons (e : Entry) (entries : List Entry) :
    inFull (e :: entries) = e.sign.char :: (e.shown ++ inFull entries) := by
  simp [inFull, e.toList_text]

/-- A trace in full begins with a sign. -/
lemma head?_inFull (entries : List Entry) :
    ∀ c ∈ (inFull entries).head?, ∃ s : Sign, s.char = c := by
  cases entries with
  | nil => simp
  | cons e entries =>
      intro c hc
      exact ⟨e.sign, by simpa using hc⟩

lemma isDigit_head?_inFull (entries : List Entry) :
    ∀ c ∈ (inFull entries).head?, c.isDigit = false := by
  intro c hc
  obtain ⟨s, rfl⟩ := head?_inFull entries c hc
  exact s.isDigit_char

/-- **An entry ends where the next sign stands.** -/
lemma Entry.shown_append_inj {e e' : Entry} {es es' : List Entry} (hsign : e.sign = e'.sign)
    (h : e.shown ++ inFull es = e'.shown ++ inFull es') : e = e' ∧ inFull es = inFull es' := by
  have hopen : '['.isDigit = false := by decide
  have hclose : ∀ cs : List Char, ∀ c ∈ (']' :: cs).head?, c.isDigit = false := by simp
  cases e with
  | constant s v =>
      cases e' with
      | constant s' v' =>
          obtain ⟨rfl, hrest⟩ :=
            Numeral.digits_append_inj (isDigit_head?_inFull es) (isDigit_head?_inFull es') h
          exact ⟨congrArg (constant · v) hsign, hrest⟩
      | rolled s' v' => exact absurd h (Numeral.digits_append_ne_cons hopen _ _ _)
  | rolled s v =>
      cases e' with
      | constant s' v' => exact absurd h.symm (Numeral.digits_append_ne_cons hopen _ _ _)
      | rolled s' v' =>
          simp only [shown, List.cons_append, List.append_assoc, List.nil_append, List.cons.injEq,
            true_and] at h
          obtain ⟨rfl, hrest⟩ := Numeral.digits_append_inj (hclose _) (hclose _) h
          exact ⟨congrArg (rolled · v) hsign, (List.cons.inj hrest).2⟩

/-- **No two traces have the same text in full.** -/
theorem inFull_injective : Function.Injective inFull := by
  intro es es' h
  induction es generalizing es' with
  | nil => cases es' <;> simp_all
  | cons e es ih =>
      cases es' with
      | nil => simp at h
      | cons e' es' =>
          rw [inFull_cons, inFull_cons, List.cons.injEq] at h
          obtain ⟨rfl, hrest⟩ := Entry.shown_append_inj (Sign.char_injective h.1) h.2
          rw [ih hrest]

/-! ## The plus in front -/

/-- Puts a plus in front of a text that has no minus there, if it has anything. -/
def withPlus : List Char → List Char
  | [] => []
  | '-' :: cs => '-' :: cs
  | cs => '+' :: cs

lemma withPlus_of_ne {c : Char} (h : c ≠ '-') (cs : List Char) :
    withPlus (c :: cs) = '+' :: c :: cs := by
  unfold withPlus
  split
  case h_1 heq => cases heq
  case h_2 heq => exact absurd (List.cons.inj heq).1 h
  case h_3 => rfl

/-- How the text of a trace begins, if there is any: with a minus, or with what stands behind the
plus that is left out. -/
lemma dropPlus_inFull_cons (e : Entry) (es : List Entry) :
    (e.sign = .plus ∧ dropPlus (inFull (e :: es)) = e.shown ++ inFull es) ∨
      (e.sign = .minus ∧ dropPlus (inFull (e :: es)) = '-' :: (e.shown ++ inFull es)) := by
  rw [inFull_cons]
  cases e.sign with
  | plus => exact Or.inl ⟨rfl, dropPlus_plus _⟩
  | minus => exact Or.inr ⟨rfl, dropPlus_of_ne (by decide) _⟩

/-- **The plus that is left out can be put back.** -/
lemma withPlus_dropPlus_inFull (es : List Entry) : withPlus (dropPlus (inFull es)) = inFull es := by
  cases es with
  | nil => rfl
  | cons e es =>
      rcases dropPlus_inFull_cons e es with ⟨hsign, htext⟩ | ⟨hsign, htext⟩
      · obtain ⟨c, cs, hcs, hc⟩ := e.exists_head_shown
        have hne : c ≠ '-' := by
          rintro rfl
          simp at hc
        rw [htext, hcs, List.cons_append, withPlus_of_ne hne, inFull_cons, hsign, hcs]
        rfl
      · rw [htext, inFull_cons, hsign]
        rfl

/-! ## The text of a trace -/

namespace Outcome

lemma toList_traceText_eq_inFull (o : Outcome) : o.traceText.toList = dropPlus (inFull o.trace) :=
  o.toList_traceText

/-- **The trace can be told from its text.** -/
lemma traceText_eq_iff {o o' : Outcome} : o.traceText = o'.traceText ↔ o.trace = o'.trace := by
  constructor
  · intro h
    have hdropped : dropPlus (inFull o.trace) = dropPlus (inFull o'.trace) := by
      rw [← toList_traceText_eq_inFull, h, toList_traceText_eq_inFull]
    have hfull := congrArg withPlus hdropped
    rw [withPlus_dropPlus_inFull, withPlus_dropPlus_inFull] at hfull
    exact inFull_injective hfull
  · intro h
    rw [traceText, traceText, h]

/-- **The text of a trace begins** with a minus, a digit or a bracket, if it is not empty. -/
lemma head?_traceText (o : Outcome) :
    ∀ c ∈ o.traceText.toList.head?, c = '-' ∨ c.isDigit = true ∨ c = '[' := by
  rw [toList_traceText_eq_inFull]
  cases o.trace with
  | nil => simp
  | cons e es =>
      rcases dropPlus_inFull_cons e es with ⟨-, htext⟩ | ⟨-, htext⟩
      · obtain ⟨c, cs, hcs, hc⟩ := e.exists_head_shown
        rw [htext, hcs]
        intro d hd
        obtain rfl : c = d := by simpa using hd
        exact Or.inr hc
      · rw [htext]
        simp

end Outcome

end CabbageFormula
