import CabbageFormula.Proofs.Lines
import Mathlib.Data.List.Infix
import Mathlib.Data.List.Flatten

/-!
# The lines of texts

The bytes of a text in UTF-8 are cut into lines where the text is: the bytes that end a line are
bytes of just the characters that do.  So every line of a text is a text, too, made of the same
characters, and what is known of the ends of lines can be said of characters.

* `Console.utf8`, `Console.decode?_utf8` — the bytes of a text, and that it is read back from them.
* `Console.toNat_eq_of_mem_utf8EncodeChar` — a byte below 128 is a character of its own.
* `Console.lines_char_append`, `Console.exists_lines_utf8` — the lines of a text.
* `Console.withReturns`, `Console.lines_withReturns` — the same lines with both bytes at their ends.
* `Console.lines_concat_newline` — the same lines with an end to the last of them.
* `Console.exists_line_of_newline_notMem` — a single line.
-/

namespace CabbageFormula.Console

/-! ## The bytes of a text -/

/-- The bytes of characters in UTF-8. -/
def encode (cs : List Char) : List UInt8 := cs.flatMap String.utf8EncodeChar

/-- **The bytes of a text** in UTF-8. -/
def utf8 (text : String) : List UInt8 := text.toByteArray.data.toList

lemma utf8_eq_encode (text : String) : utf8 text = encode text.toList := by
  rw [utf8, ← String.utf8Encode_toList, List.utf8Encode, List.data_toByteArray]
  rfl

lemma utf8_ofList (cs : List Char) : utf8 (String.ofList cs) = encode cs := by
  rw [utf8_eq_encode, String.toList_ofList]

lemma utf8_append (front back : String) : utf8 (front ++ back) = utf8 front ++ utf8 back := by
  rw [utf8_eq_encode, utf8_eq_encode, utf8_eq_encode, String.toList_append]
  exact List.flatMap_append

lemma utf8_newline : utf8 "\n" = [newline] := by
  decide

/-- **A text is read back** from its bytes. -/
lemma decode?_utf8 (text : String) : decode? (utf8 text) = some text :=
  dif_pos text.isValidUTF8

lemma utf8EncodeChar_ne_nil (c : Char) : String.utf8EncodeChar c ≠ [] := by
  rw [← List.length_pos_iff, String.length_utf8EncodeChar]
  exact c.utf8Size_pos

/-- **A byte below 128 is a character of its own.** -/
lemma toNat_eq_of_mem_utf8EncodeChar {c : Char} {b : UInt8} (h : b ∈ String.utf8EncodeChar c)
    (hb : b.toNat < 128) : c.toNat = b.toNat := by
  have hval : c.val.toNat = c.toNat := rfl
  unfold String.utf8EncodeChar at h
  simp only [hval] at h
  split at h
  case isTrue hc =>
    rw [List.mem_singleton] at h
    rw [h, UInt8.toNat_ofNat', Nat.mod_eq_of_lt (by omega)]
  case isFalse =>
    -- all bytes of a longer character are from 128 on
    exfalso
    split at h
    case isTrue =>
      simp only [List.mem_cons, List.not_mem_nil, or_false] at h
      rcases h with rfl | rfl <;> rw [UInt8.toNat_ofNat'] at hb <;> omega
    case isFalse =>
      split at h
      case isTrue =>
        simp only [List.mem_cons, List.not_mem_nil, or_false] at h
        rcases h with rfl | rfl | rfl <;> rw [UInt8.toNat_ofNat'] at hb <;> omega
      case isFalse =>
        simp only [List.mem_cons, List.not_mem_nil, or_false] at h
        rcases h with rfl | rfl | rfl | rfl <;> rw [UInt8.toNat_ofNat'] at hb <;> omega

lemma eq_of_newline_mem {c : Char} (h : newline ∈ String.utf8EncodeChar c) : c = '\n' :=
  Char.toNat_inj.mp (toNat_eq_of_mem_utf8EncodeChar h (by decide))

lemma eq_of_carriageReturn_mem {c : Char} (h : carriageReturn ∈ String.utf8EncodeChar c) :
    c = '\r' :=
  Char.toNat_inj.mp (toNat_eq_of_mem_utf8EncodeChar h (by decide))

lemma head?_encode_eq_newline_iff {cs : List Char} :
    (encode cs).head? = some newline ↔ cs.head? = some '\n' := by
  cases cs with
  | nil => exact iff_of_false (by simp [encode]) (by simp)
  | cons c cs =>
      obtain ⟨b, more, hc⟩ := List.exists_cons_of_ne_nil (utf8EncodeChar_ne_nil c)
      have hhead : (encode (c :: cs)).head? = some b := by
        rw [encode, List.flatMap_cons, hc]
        rfl
      rw [hhead, List.head?_cons, Option.some.injEq, Option.some.injEq]
      constructor
      · rintro rfl
        exact eq_of_newline_mem (hc ▸ List.mem_cons_self)
      · rintro rfl
        exact (List.cons.inj hc).1.symm

/-! ## The lines of a text -/

lemma foldr_attach_nil {front : List UInt8} (h : front ≠ []) : front.foldr attach [] = [front] := by
  induction front with
  | nil => exact absurd rfl h
  | cons b front ih =>
      cases front with
      | nil => rfl
      | cons c front => rw [List.foldr_cons, ih (List.cons_ne_nil c front), attach]

lemma foldr_attach_cons (front line : List UInt8) (more : List (List UInt8)) :
    front.foldr attach (line :: more) = (front ++ line) :: more := by
  induction front with
  | nil => rfl
  | cons b front ih => rw [List.foldr_cons, ih, attach, List.cons_append]

lemma lines_append_of_inner {front : List UInt8}
    (h : ∀ b ∈ front, b ≠ newline ∧ b ≠ carriageReturn) (rest : List UInt8) :
    lines (front ++ rest) = front.foldr attach (lines rest) := by
  induction front with
  | nil => rfl
  | cons b front ih =>
      obtain ⟨⟨hnewline, hreturn⟩, hfront⟩ := List.forall_mem_cons.mp h
      rw [List.cons_append, lines_cons, if_neg hnewline, if_neg fun hend => hreturn hend.1,
        ih hfront, List.foldr_cons]

/-- **The lines of a text, character by character.** -/
lemma lines_char_append (c : Char) (rest : List UInt8) :
    lines (String.utf8EncodeChar c ++ rest) =
      if c = '\n' then [] :: lines rest
      else if c = '\r' ∧ rest.head? = some newline then lines rest
      else (String.utf8EncodeChar c).foldr attach (lines rest) := by
  by_cases hnewline : c = '\n'
  · subst hnewline
    exact lines_newline rest
  · rw [if_neg hnewline]
    by_cases hreturn : c = '\r'
    · subst hreturn
      have hbyte : String.utf8EncodeChar '\r' = [carriageReturn] := by decide
      rw [hbyte, List.singleton_append, lines_cons, if_neg (by decide)]
      exact if_congr (and_congr_left' (iff_of_true rfl rfl)) rfl rfl
    · rw [if_neg fun hend => hreturn hend.1]
      refine lines_append_of_inner (fun b hb => ⟨?_, ?_⟩) rest
      · rintro rfl
        exact hnewline (eq_of_newline_mem hb)
      · rintro rfl
        exact hreturn (eq_of_carriageReturn_mem hb)

lemma encode_cons (c : Char) (cs : List Char) :
    encode (c :: cs) = String.utf8EncodeChar c ++ encode cs :=
  List.flatMap_cons

/-- **The lines of a text are texts**, of the same characters. -/
lemma exists_lines_encode (cs : List Char) :
    ∃ texts : List (List Char), lines (encode cs) = texts.map encode ∧
      ∀ text ∈ texts, text ⊆ cs := by
  induction cs with
  | nil => exact ⟨[], rfl, by simp⟩
  | cons c cs ih =>
      obtain ⟨texts, htexts, hsubset⟩ := ih
      have hmore : ∀ text ∈ texts, text ⊆ c :: cs :=
        fun text htext => List.subset_cons_of_subset c (hsubset text htext)
      rw [encode_cons, lines_char_append, htexts]
      split
      case isTrue =>
        exact ⟨[] :: texts, rfl, List.forall_mem_cons.mpr ⟨List.nil_subset _, hmore⟩⟩
      case isFalse =>
        split
        case isTrue => exact ⟨texts, rfl, hmore⟩
        case isFalse =>
          cases texts with
          | nil =>
              refine ⟨[[c]], ?_, by simp⟩
              rw [List.map_nil, foldr_attach_nil (utf8EncodeChar_ne_nil c), List.map_singleton,
                encode_cons]
              exact congrArg (fun line => [line]) (List.append_nil _).symm
          | cons text texts =>
              obtain ⟨htext, hrest⟩ := List.forall_mem_cons.mp hmore
              refine ⟨(c :: text) :: texts, ?_, ?_⟩
              · rw [List.map_cons, foldr_attach_cons, List.map_cons, encode_cons]
              · exact List.forall_mem_cons.mpr
                  ⟨List.cons_subset.mpr ⟨List.mem_cons_self, htext⟩, hrest⟩

lemma exists_lines_utf8 (text : String) :
    ∃ texts : List String, lines (utf8 text) = texts.map utf8 ∧
      ∀ line ∈ texts, line.toList ⊆ text.toList := by
  obtain ⟨texts, htexts, hsubset⟩ := exists_lines_encode text.toList
  refine ⟨texts.map String.ofList, ?_, ?_⟩
  · rw [utf8_eq_encode, htexts, List.map_map]
    exact List.map_congr_left fun line _ => (utf8_ofList line).symm
  · intro line hline
    obtain ⟨cs, hcs, rfl⟩ := List.mem_map.mp hline
    rw [String.toList_ofList]
    exact hsubset cs hcs

/-! ## Both bytes at the ends of lines -/

/-- **A text with a carriage return in front of each of its line ends.** -/
def withReturns (text : String) : String :=
  String.ofList (text.toList.flatMap fun c => if c = '\n' then ['\r', '\n'] else [c])

lemma lines_encode_withReturns {cs : List Char} (h : ¬ ['\r', '\n'] <:+: cs) :
    lines (encode (cs.flatMap fun c => if c = '\n' then ['\r', '\n'] else [c])) =
      lines (encode cs) := by
  induction cs with
  | nil => rfl
  | cons c cs ih =>
      rw [List.infix_cons_iff, not_or, List.cons_prefix_cons] at h
      obtain ⟨hhead, htail⟩ := h
      rw [List.flatMap_cons]
      by_cases hc : c = '\n'
      · subst hc
        rw [if_pos rfl, List.cons_append, List.singleton_append, encode_cons, lines_char_append,
          if_neg (by decide), if_pos ⟨rfl, head?_encode_eq_newline_iff.mpr rfl⟩, encode_cons,
          encode_cons, lines_char_append, lines_char_append, if_pos rfl, if_pos rfl, ih htail]
      · -- a carriage return that is in the text already ends no line, before or after
        have hafter : ¬ (c = '\r' ∧ (encode cs).head? = some newline) := by
          rintro ⟨rfl, hnext⟩
          refine hhead ⟨rfl, ?_⟩
          obtain ⟨rest, rfl⟩ := List.head?_eq_some_iff.mp (head?_encode_eq_newline_iff.mp hnext)
          exact List.prefix_append ['\n'] rest
        have hbefore : ∀ rest : List Char,
            ((rest.flatMap fun c => if c = '\n' then ['\r', '\n'] else [c]).head? ≠
              some '\n') := by
          rintro (_ | ⟨d, rest⟩)
          · simp
          · rw [List.flatMap_cons]
            by_cases hd : d = '\n'
            · simp [hd]
            · simp [hd]
        rw [if_neg hc, List.singleton_append, encode_cons, encode_cons, lines_char_append,
          lines_char_append, if_neg hc, if_neg hc, if_neg hafter,
          if_neg fun hend => hbefore cs (head?_encode_eq_newline_iff.mp hend.2), ih htail]

/-- **A carriage return in front of each line end** makes no difference to the lines, unless there
was one already. -/
theorem lines_withReturns {text : String} (h : ¬ ['\r', '\n'] <:+: text.toList) :
    lines (utf8 (withReturns text)) = lines (utf8 text) := by
  rw [withReturns, utf8_ofList, lines_encode_withReturns h, utf8_eq_encode]

/-! ## The end of the last line -/

lemma lines_append_newline {bytes : List UInt8} {b : UInt8} (hnewline : b ≠ newline)
    (hreturn : b ≠ carriageReturn) :
    lines (bytes ++ [b] ++ [newline]) = lines (bytes ++ [b]) := by
  have hlast : ∀ rest, lines (b :: rest) = attach b (lines rest) := by
    intro rest
    rw [lines_cons, if_neg hnewline, if_neg fun hend => hreturn hend.1]
  induction bytes with
  | nil =>
      rw [List.nil_append, List.singleton_append, hlast, hlast]
      rfl
  | cons c bytes ih =>
      have hhead : (bytes ++ [b] ++ [newline]).head? = (bytes ++ [b]).head? := by
        cases bytes <;> rfl
      rw [List.cons_append, List.cons_append, lines_cons, lines_cons, ih, hhead]

/-- **An end to the last line** makes no difference to the lines. -/
theorem lines_concat_newline {text : String} {c : Char} (h : text.toList.getLast? = some c)
    (hnewline : c ≠ '\n') (hreturn : c ≠ '\r') :
    lines (utf8 (text ++ "\n")) = lines (utf8 text) := by
  obtain ⟨front, hfront⟩ := List.getLast?_eq_some_iff.mp h
  obtain ⟨bytes, b, hc⟩ := (List.eq_nil_or_concat' (String.utf8EncodeChar c)).resolve_left
    (utf8EncodeChar_ne_nil c)
  have hb : b ∈ String.utf8EncodeChar c := by rw [hc]; simp
  have hbytes : utf8 text = encode front ++ bytes ++ [b] := by
    rw [utf8_eq_encode, hfront, encode, List.flatMap_append, List.flatMap_singleton, hc, encode,
      List.append_assoc]
  rw [utf8_append, hbytes, utf8_newline]
  refine lines_append_newline ?_ ?_
  · rintro rfl
    exact hnewline (eq_of_newline_mem hb)
  · rintro rfl
    exact hreturn (eq_of_carriageReturn_mem hb)

/-! ## A single line -/

lemma exists_line_of_newline_notMem {bytes : List UInt8} (h : newline ∉ bytes) :
    ∃ line, lines (bytes ++ [newline]) = [line] := by
  induction bytes with
  | nil => exact ⟨[], rfl⟩
  | cons b bytes ih =>
      rw [List.mem_cons, not_or] at h
      obtain ⟨line, hline⟩ := ih h.2
      rw [List.cons_append, lines_cons, if_neg fun hb => h.1 hb.symm, hline]
      split
      case isTrue => exact ⟨line, rfl⟩
      case isFalse => exact ⟨b :: line, rfl⟩

/-- **A text without a line end in it is one line**, of the same characters, when it gets one. -/
lemma exists_line_utf8 {text : String} (h : '\n' ∉ text.toList) :
    ∃ line : String, lines (utf8 (text ++ "\n")) = [utf8 line] ∧
      line.toList ⊆ (text ++ "\n").toList := by
  have hnewline : newline ∉ utf8 text := by
    rw [utf8_eq_encode, encode, List.mem_flatMap]
    rintro ⟨c, hc, hbyte⟩
    exact h (eq_of_newline_mem hbyte ▸ hc)
  obtain ⟨line, hline⟩ := exists_line_of_newline_notMem hnewline
  obtain ⟨texts, htexts, hsubset⟩ := exists_lines_utf8 (text ++ "\n")
  rw [utf8_append, utf8_newline, hline] at htexts
  obtain ⟨text', rfl, htext'⟩ := List.map_eq_singleton_iff.mp htexts.symm
  refine ⟨text', ?_, hsubset text' (List.mem_singleton_self _)⟩
  rw [utf8_append, utf8_newline, hline, htext']

/-! ## Texts that end with a line -/

/-- **A text ends with a line** if it has no unfinished one: it is empty, or a line end is its last
character. -/
def EndsLine (text : String) : Prop := text = "" ∨ text.toList.getLast? = some '\n'

lemma EndsLine.closed {text : String} (h : EndsLine text) : Closed (utf8 text) := by
  rcases h with rfl | h
  · exact closed_nil
  · obtain ⟨front, hfront⟩ := List.getLast?_eq_some_iff.mp h
    have hbyte : String.utf8EncodeChar '\n' = [newline] := by decide
    right
    rw [utf8_eq_encode, hfront, encode, List.flatMap_append, List.flatMap_singleton, hbyte,
      List.getLast?_concat]

end CabbageFormula.Console
