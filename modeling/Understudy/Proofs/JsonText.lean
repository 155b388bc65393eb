import Mathlib.Tactic.IntervalCases
import Mathlib.Tactic.SplitIfs
import Understudy.Document.Json
import Understudy.Document.Json.Writer
import Understudy.Proofs.DocumentData
import Understudy.Proofs.Outcome

/-!
# Reading what was written

Data that was written as JSON is read back, whether it stands on one line or on many. A number ends
where no character makes it longer, so what is read never depends on what comes behind it, and the
number of characters bounds both how deep a text is and how many items it holds.

* `text_escape`, `number_toDigits`: texts and numbers.
* `separated_intercalate`, `enclosed_writeItems`: the items of lists and records.
* `Written`: whatever a value is written as is read as that value. There is a lemma for each kind.
* `read?_writeAt`: whole documents.
-/

namespace Understudy.Document

namespace Reader

variable {α β : Type}

theorem bind_run {r : Reader α} {f : α → Reader β} {cs rest : List Char} {a : α}
    (h : r cs = some (a, rest)) : (r >>= f) cs = f a rest := by
  simp [bind, StateT.bind, h]

theorem accept_cons {s : String} {c : Char} (hs : s.toList = [c]) (cs : List Char) :
    accept s (c :: cs) = some (true, cs) := by
  simp [accept, hs]

theorem accept_of_head_ne {s : String} {c : Char} (hs : s.toList = [c]) {cs : List Char}
    (hcs : cs.head? ≠ some c) : accept s cs = some (false, cs) := by
  cases cs with
  | nil => simp [accept, hs]
  | cons d cs =>
    have hne : c ≠ d := fun h => hcs (h ▸ rfl)
    simp [accept, hs, hne]

theorem accept_cons_of_ne {s : String} {c d : Char} (hs : s.toList = [c]) (hne : d ≠ c)
    (cs : List Char) : accept s (d :: cs) = some (false, d :: cs) :=
  accept_of_head_ne hs fun h => hne (Option.some.inj h)

theorem expect_append (s : String) (cs : List Char) :
    expect s (s.toList ++ cs) = some ((), cs) := by
  have haccept : accept s (s.toList ++ cs) = some (true, cs) := by simp [accept]
  rw [expect, bind_run haccept]
  rfl

theorem expect_cons {s : String} {c : Char} (hs : s.toList = [c]) (cs : List Char) :
    expect s (c :: cs) = some ((), cs) := by
  have h := expect_append s cs
  rwa [hs] at h

theorem peek?_cons (c : Char) (cs : List Char) : peek? (c :: cs) = some (some c, c :: cs) := rfl

/-- `rest` does not begin with a character of the kind `p`. -/
def Stops (p : Char → Bool) (rest : List Char) : Prop := ∀ c, rest.head? = some c → p c = false

theorem stops_cons {p : Char → Bool} {c : Char} (hc : p c = false) (cs : List Char) :
    Stops p (c :: cs) :=
  fun _ hd => Option.some.inj hd ▸ hc

theorem takeWhile_append {p : Char → Bool} {cs rest : List Char} (hcs : ∀ c ∈ cs, p c = true)
    (hrest : Stops p rest) : takeWhile p (cs ++ rest) = some (cs, rest) := by
  rw [takeWhile, List.takeWhile_append_of_pos hcs, List.dropWhile_append_of_pos hcs]
  cases rest with
  | nil => simp
  | cons c rest => simp [hrest c rfl]

end Reader

namespace Json

open Reader

/-! ## Texts -/

theorem hex4?_hex4 {n : Nat} (h : n < 0x20) :
    ∃ a b c d, hex4 n = [a, b, c, d] ∧ hex4? a b c d = some n := by
  interval_cases n <;> exact ⟨_, _, _, _, rfl, rfl⟩

theorem codePoints_escape (c : Char) {cs rest : List Char} {ns : List Nat}
    (h : codePoints cs = some (ns, rest)) :
    codePoints (escape c ++ cs) = some (c.toNat :: ns, rest) := by
  unfold escape
  split_ifs with hquote hbackslash hb hf hn hr ht hcontrol
  -- the characters with an escape of one letter
  iterate 7 (subst c; simp [codePoints, shortEscape?, h])
  · obtain ⟨a, b, c', d, hwritten, hread⟩ := hex4?_hex4 hcontrol
    simp [hwritten, codePoints, hread, h]
  · rw [List.singleton_append, codePoints]
    · simp [hbackslash, hcontrol, h]
    · rintro rfl
      exact hquote rfl
    · exact fun _ _ _ _ _ h _ => hbackslash h
    · exact fun _ _ h _ => hbackslash h

theorem codePoints_flatMap_escape (cs rest : List Char) :
    codePoints (cs.flatMap escape ++ '"' :: rest) = some (cs.map Char.toNat, rest) := by
  induction cs with
  | nil => rfl
  | cons c cs ih => rw [List.flatMap_cons, List.append_assoc, codePoints_escape c ih, List.map_cons]

theorem ofCodePoints?_map_toNat (cs : List Char) : ofCodePoints? (cs.map Char.toNat) = some cs := by
  induction cs with
  | nil => rfl
  | cons c cs ih =>
    have hvalid : c.toNat < 0xd800 ∨ 0xdfff < c.toNat ∧ c.toNat < 0x110000 := c.valid
    have hhigh : isHighSurrogate c.toNat = false := by
      simp only [isHighSurrogate, Bool.and_eq_false_iff, decide_eq_false_iff_not]
      omega
    have hlow : isLowSurrogate c.toNat = false := by
      simp only [isLowSurrogate, Bool.and_eq_false_iff, decide_eq_false_iff_not]
      omega
    cases cs with
    | nil => simp [ofCodePoints?, hhigh, hlow]
    | cons d cs =>
      rw [List.map_cons] at ih
      simp [ofCodePoints?, hhigh, hlow, ih]

theorem text_escape (s : String) (rest : List Char) :
    text (s.toList.flatMap escape ++ '"' :: rest) = some (some s, rest) := by
  simp [text, codePoints_flatMap_escape, ofCodePoints?_map_toNat]

/-! ## Numbers -/

/-- Whether `c` makes a number longer. -/
def continuesNumber (c : Char) : Bool := c.isDigit || c = '.' || c = 'e' || c = 'E'

theorem exists_toDigits_eq_cons (n : Nat) :
    ∃ d ds, Nat.toDigits 10 n = d :: ds ∧ d.isDigit = true := by
  obtain ⟨d, ds, h⟩ := List.exists_cons_of_ne_nil (Nat.toDigits_ne_nil (n := n) (b := 10))
  exact ⟨d, ds, h, Nat.isDigit_of_mem_toDigits (by decide) (by decide) (h ▸ List.mem_cons_self)⟩

theorem head?_toDigits_ne_zero {n : Nat} (h : 0 < n) : (Nat.toDigits 10 n).head? ≠ some '0' := by
  induction n using Nat.strongRecOn with
  | _ n ih =>
    by_cases hlt : n < 10
    · rw [Nat.toDigits_of_lt_base hlt]
      interval_cases n <;> decide
    · rw [Nat.toDigits_of_base_le (by decide) (by omega),
        List.head?_append_of_ne_nil _ Nat.toDigits_ne_nil]
      exact ih (n / 10) (by omega) (by omega)

theorem wholeDigits_toDigits (n : Nat) {rest : List Char} (hrest : Stops Char.isDigit rest) :
    wholeDigits (Nat.toDigits 10 n ++ rest) = some (Nat.toDigits 10 n, rest) := by
  have hne : (Nat.toDigits 10 n).isEmpty = false := by simp [Nat.toDigits_ne_nil]
  have htake : takeWhile Char.isDigit (Nat.toDigits 10 n ++ rest) =
      some (Nat.toDigits 10 n, rest) :=
    takeWhile_append (fun c hc => Nat.isDigit_of_mem_toDigits (by decide) (by decide) hc) hrest
  have hdigits : digits (Nat.toDigits 10 n ++ rest) = some (Nat.toDigits 10 n, rest) := by
    rw [digits, bind_run htake, hne]
    rfl
  have hzero : ¬ ((Nat.toDigits 10 n).length > 1 ∧ (Nat.toDigits 10 n).head? = some '0') := by
    rintro ⟨hlength, hhead⟩
    obtain rfl | hpos := Nat.eq_zero_or_pos n
    · simp at hlength
    · exact head?_toDigits_ne_zero hpos hhead
  rw [wholeDigits, bind_run hdigits]
  simp only [Bool.and_eq_true, decide_eq_true_eq, if_neg hzero]
  rfl

theorem number_toDigits {n : Nat} (hn : n < UInt64.size) {rest : List Char}
    (hrest : Stops continuesNumber rest) :
    number (Nat.toDigits 10 n ++ rest) = some (.nat n, rest) := by
  have hstops : ∀ c, continuesNumber c = true → rest.head? ≠ some c := fun c hc h => by
    simp [hrest c h] at hc
  have hsign : (Nat.toDigits 10 n ++ rest).head? ≠ some '-' := by
    obtain ⟨d, ds, hd, hdigit⟩ := exists_toDigits_eq_cons n
    rw [hd]
    rintro ⟨⟩
    exact absurd hdigit (by decide)
  have hdigit : Stops Char.isDigit rest := fun c hc => by
    have hcontinues := hrest c hc
    simp only [continuesNumber, Bool.or_eq_false_iff] at hcontinues
    exact hcontinues.1.1.1
  have hpoint : accept "." rest = some (false, rest) := accept_of_head_ne rfl (hstops '.' rfl)
  have he : accept "e" rest = some (false, rest) := accept_of_head_ne rfl (hstops 'e' rfl)
  have hE : accept "E" rest = some (false, rest) := accept_of_head_ne rfl (hstops 'E' rfl)
  have hexponent : exponent? rest = some (none, rest) := by
    rw [exponent?, bind_run he]
    exact bind_run hE
  have hparts : ofParts false (Nat.toDigits 10 n) [] none = .nat n := by
    simp [ofParts, ofWhole?, Nat.ofDigitChars_ten_toDigits, hn]
  rw [number, bind_run (accept_of_head_ne rfl hsign),
    bind_run (wholeDigits_toDigits n hdigit), bind_run hpoint]
  change (exponent? >>= fun exp? => pure (ofParts false (Nat.toDigits 10 n) [] exp?)) rest = _
  rw [bind_run hexponent, hparts]
  rfl

/-! ## Lists and records -/

section Items

variable {α : Type}

/-- `r` reads `cs` as `a`, whatever comes behind it that does not make it longer. -/
def Reads (r : Reader α) (cs : List Char) (a : α) : Prop :=
  ∀ rest, Stops continuesNumber rest → r (cs ++ rest) = some (a, rest)

/-- `cs` begins neither with a blank nor with what closes a list or a record. -/
def BeginsItem (cs : List Char) : Prop :=
  ∃ c tail, cs = c :: tail ∧ isSpace c = false ∧ c ≠ ']' ∧ c ≠ '\x7d'

theorem BeginsItem.stops {cs : List Char} (h : BeginsItem cs) (rest : List Char) :
    Stops isSpace (cs ++ rest) := by
  obtain ⟨c, tail, rfl, hspace, -⟩ := h
  exact stops_cons hspace (tail ++ rest)

theorem BeginsItem.exists_eq_succ {cs : List Char} (h : BeginsItem cs) {n : Nat}
    (hn : cs.length ≤ n) : ∃ m, n = m + 1 := by
  obtain ⟨c, tail, rfl, -⟩ := h
  exact Nat.exists_eq_succ_of_ne_zero (by rintro rfl; simp at hn)

theorem continuesNumber_of_isSpace {c : Char} (h : isSpace c = true) :
    continuesNumber c = false := by
  simp only [isSpace, Bool.or_eq_true, decide_eq_true_eq] at h
  obtain ((rfl | rfl) | rfl) | rfl := h <;> rfl

theorem isSpace_of_isDigit {c : Char} (h : c.isDigit = true) : isSpace c = false := by
  refine Bool.eq_false_iff.2 fun hspace => ?_
  simpa [continuesNumber, h] using continuesNumber_of_isSpace hspace

theorem stops_blanks_append {blanks : List Char} (hblanks : ∀ c ∈ blanks, isSpace c = true)
    {c : Char} (hc : continuesNumber c = false) (rest : List Char) :
    Stops continuesNumber (blanks ++ c :: rest) := by
  cases blanks with
  | nil => exact stops_cons hc rest
  | cons b blanks =>
    exact stops_cons (continuesNumber_of_isSpace (hblanks b List.mem_cons_self)) _

theorem skipSpace_append {blanks rest : List Char} (hblanks : ∀ c ∈ blanks, isSpace c = true)
    (hrest : Stops isSpace rest) : skipSpace (blanks ++ rest) = some ((), rest) := by
  rw [skipSpace, bind_run (takeWhile_append hblanks hrest)]
  rfl

theorem skipSpace_cons {c : Char} (hc : isSpace c = false) (cs : List Char) :
    skipSpace (c :: cs) = some ((), c :: cs) := by
  have hnone : takeWhile isSpace (c :: cs) = some ([], c :: cs) :=
    takeWhile_append (List.forall_mem_nil _) (stops_cons hc cs)
  rw [skipSpace, bind_run hnone]
  rfl

theorem exists_intercalate_cons (sep cs : List Char) (l : List (List Char)) :
    ∃ tail, sep.intercalate (cs :: l) = cs ++ tail := by
  cases l with
  | nil => exact ⟨[], by simp⟩
  | cons cs' l => exact ⟨_, by rw [List.intercalate_cons_cons, List.append_assoc]⟩

variable {item : Reader α} {closing : String} {close : Char} {before after : List Char}

/-- The `items` with commas and blanks between them, up to what `close`s them. -/
theorem separated_intercalate (hclosing : closing.toList = [close])
    (hclose : close = ']' ∨ close = '\x7d') (hbefore : ∀ c ∈ before, isSpace c = true)
    (hafter : ∀ c ∈ after, isSpace c = true) {items : List (List Char × α)} (hne : items ≠ [])
    (hitems : ∀ i ∈ items, BeginsItem i.1 ∧ Reads item i.1 i.2) {n : Nat} (hn : items.length ≤ n)
    (rest : List Char) :
    separated item closing n
        ((',' :: before).intercalate (items.map Prod.fst) ++ (after ++ close :: rest)) =
      some (items.map Prod.snd, rest) := by
  have hspace : isSpace close = false := by rcases hclose with rfl | rfl <;> rfl
  have hnumber : continuesNumber close = false := by rcases hclose with rfl | rfl <;> rfl
  have hcomma : ',' ≠ close := by rcases hclose with rfl | rfl <;> decide
  induction items generalizing n with
  | nil => exact absurd rfl hne
  | cons i items ih =>
    obtain ⟨m, rfl⟩ : ∃ m, n = m + 1 := Nat.exists_eq_succ_of_ne_zero (by rintro rfl; simp at hn)
    have hread := (hitems i List.mem_cons_self).2
    cases items with
    | nil =>
      -- the last item, blanks, and what closes the items
      rw [List.map_singleton, List.intercalate_singleton, separated,
        bind_run (hread _ (stops_blanks_append hafter hnumber rest)),
        bind_run (skipSpace_append hafter (stops_cons hspace rest)),
        bind_run (accept_cons hclosing rest)]
      rfl
    | cons j items =>
      -- an item, a comma, blanks, and the other items
      have hrest := ih (by simp) (fun k hk => hitems k (List.mem_cons_of_mem _ hk))
        (n := m) (by simpa using hn)
      rw [List.map_cons, List.map_cons] at hrest
      generalize htail : (',' :: before).intercalate (j.1 :: items.map Prod.fst) ++
        (after ++ close :: rest) = tail at hrest
      have hbegins : Stops isSpace tail := by
        obtain ⟨more, hmore⟩ := exists_intercalate_cons (',' :: before) j.1 (items.map Prod.fst)
        rw [← htail, hmore, List.append_assoc]
        exact (hitems j (by simp)).1.stops _
      rw [List.map_cons, List.map_cons, List.intercalate_cons_cons, List.append_assoc,
        List.append_assoc, htail, List.cons_append]
      rw [separated, bind_run (hread _ (stops_cons rfl _)), bind_run (skipSpace_cons rfl _),
        bind_run (accept_cons_of_ne hclosing hcomma _)]
      refine (bind_run (expect_cons rfl _)).trans ?_
      rw [bind_run (skipSpace_append hbefore hbegins), bind_run hrest]
      rfl

theorem enclosed_nil (hclosing : closing.toList = [close])
    (hclose : close = ']' ∨ close = '\x7d') (n : Nat) (rest : List Char) :
    enclosed item closing n (close :: rest) = some ([], rest) := by
  have hspace : isSpace close = false := by rcases hclose with rfl | rfl <;> rfl
  rw [enclosed, bind_run (skipSpace_cons hspace rest), bind_run (accept_cons hclosing rest)]
  rfl

theorem enclosed_intercalate (hclosing : closing.toList = [close])
    (hclose : close = ']' ∨ close = '\x7d') (hbefore : ∀ c ∈ before, isSpace c = true)
    (hafter : ∀ c ∈ after, isSpace c = true) {items : List (List Char × α)} (hne : items ≠ [])
    (hitems : ∀ i ∈ items, BeginsItem i.1 ∧ Reads item i.1 i.2) {n : Nat} (hn : items.length ≤ n)
    (rest : List Char) :
    enclosed item closing n (before ++
        ((',' :: before).intercalate (items.map Prod.fst) ++ (after ++ close :: rest))) =
      some (items.map Prod.snd, rest) := by
  have hread := separated_intercalate hclosing hclose hbefore hafter hne hitems hn rest
  obtain ⟨i, items, rfl⟩ := List.exists_cons_of_ne_nil hne
  obtain ⟨⟨c, cs, hi, hspace, hclosed⟩, -⟩ := hitems i List.mem_cons_self
  obtain ⟨more, hmore⟩ := exists_intercalate_cons (',' :: before) i.1 (items.map Prod.fst)
  have hfirst : c ≠ close := by rcases hclose with rfl | rfl; exacts [hclosed.1, hclosed.2]
  rw [List.map_cons, hmore, hi, List.append_assoc, List.cons_append] at hread ⊢
  rw [enclosed, bind_run (skipSpace_append hbefore (stops_cons hspace _)),
    bind_run (accept_cons_of_ne hclosing hfirst _)]
  exact hread

end Items

theorem entry_append {value : Reader Value} {blanks cs : List Char} {v : Value}
    (h : Reads value (blanks ++ cs) v) (key : String) :
    Reads (entry value) ('"' :: (key.toList.flatMap escape ++ '"' :: ':' :: (blanks ++ cs)))
      (some key, v) := by
  intro rest hrest
  rw [List.cons_append, List.append_assoc, List.cons_append, List.cons_append, entry,
    bind_run (expect_cons rfl _), bind_run (text_escape key _), bind_run (skipSpace_cons rfl _),
    bind_run (expect_cons rfl _), bind_run (h rest hrest)]
  rfl

theorem ofEntries_some (entries : List (String × Value)) :
    ofEntries (entries.map fun e => (some e.1, e.2)) = .record entries := by
  have h : ∀ f : Option String × Value → Option (String × Value),
      (∀ e ∈ entries, f (some e.1, e.2) = some (id e)) →
        (entries.map fun e => (some e.1, e.2)).mapM f = some entries := by
    intro f hf
    rw [Outcome.mapM_map_eq_some hf, List.map_id]
  rw [ofEntries, h]
  exact fun _ _ => rfl

theorem value_append {n : Nat} {blanks cs : List Char} {v : Value}
    (hblanks : ∀ c ∈ blanks, isSpace c = true) (hcs : BeginsItem cs)
    (h : Reads (value (n + 1)) cs v) : Reads (value (n + 1)) (blanks ++ cs) v := by
  intro rest hrest
  rw [List.append_assoc, ← h rest hrest]
  obtain ⟨c, cs, rfl, hspace, -⟩ := hcs
  rw [List.cons_append, value, bind_run (skipSpace_append hblanks (stops_cons hspace _)),
    bind_run (skipSpace_cons hspace _)]

/-! ## Writing -/

/-- The layout `l` sets nothing but blanks between the parts. -/
structure Layout.IsBlank (l : Layout) : Prop where
  lineBreak (level : Nat) : ∀ c ∈ (l.lineBreak level).toList, isSpace c = true
  colon : ∃ blanks, l.colon.toList = ':' :: blanks ∧ ∀ c ∈ blanks, isSpace c = true

theorem Layout.isBlank_compact : Layout.compact.IsBlank where
  lineBreak _ := by simp [Layout.compact]
  colon := ⟨[], rfl, by simp⟩

theorem Layout.isBlank_indented : Layout.indented.IsBlank where
  lineBreak level := by
    simp [Layout.indented, isSpace]
  colon := ⟨[' '], rfl, by simp [isSpace]⟩

theorem writeList_eq_map (l : Layout) (level : Nat) (vs : List Value) :
    writeList l level vs = vs.map (writeAt l level) := by
  induction vs with
  | nil => rfl
  | cons v vs ih => rw [writeList, ih, List.map_cons]

theorem writeEntries_eq_map (l : Layout) (level : Nat) (es : List (String × Value)) :
    writeEntries l level es = es.map fun e => writeText e.1 ++ l.colon ++ writeAt l level e.2 := by
  induction es with
  | nil => rfl
  | cons e es ih => rw [writeEntries, ih, List.map_cons]

theorem length_le_length_intercalate (sep : List Char) {l : List (List Char)} {cs : List Char}
    (h : cs ∈ l) : cs.length ≤ (sep.intercalate l).length := by
  induction l with
  | nil => cases h
  | cons a l ih =>
    obtain rfl | hne := eq_or_ne l []
    · simp_all
    · rw [List.intercalate_cons_of_ne_nil hne, List.length_append, List.length_append]
      rcases List.mem_cons.1 h with rfl | h
      · omega
      · have := ih h
        omega

theorem length_le_intercalate (sep : List Char) {l : List (List Char)} (h : ∀ cs ∈ l, cs ≠ []) :
    l.length ≤ (sep.intercalate l).length := by
  induction l with
  | nil => simp
  | cons a l ih =>
    have ha := List.length_pos_iff.2 (h a List.mem_cons_self)
    have hl := ih fun cs hcs => h cs (List.mem_cons_of_mem _ hcs)
    obtain rfl | hne := eq_or_ne l []
    · rwa [List.intercalate_singleton]
    · rw [List.intercalate_cons_of_ne_nil hne, List.length_append, List.length_append,
        List.length_cons]
      omega

theorem beginsItem_append {cs : List Char} (h : BeginsItem cs) (more : List Char) :
    BeginsItem (cs ++ more) := by
  obtain ⟨c, tail, rfl, hc⟩ := h
  exact ⟨c, tail ++ more, rfl, hc⟩

theorem beginsItem_writeText (s : String) : BeginsItem (writeText s).toList :=
  ⟨'"', _, by rw [writeText, String.toList_ofList], rfl, by decide, by decide⟩

theorem beginsItem_writeItems (l : Layout) (level : Nat) {opening : String}
    (h : BeginsItem opening.toList) (closing : String) (items : List String) :
    BeginsItem (writeItems l level opening closing items).toList := by
  unfold writeItems
  split
  · rw [String.toList_append]
    exact beginsItem_append h _
  · simp only [String.toList_append, List.append_assoc]
    exact beginsItem_append h _

theorem beginsItem_toDigits (n : Nat) : BeginsItem (Nat.toDigits 10 n) := by
  obtain ⟨d, ds, h, hd⟩ := exists_toDigits_eq_cons n
  refine ⟨d, ds, h, isSpace_of_isDigit hd, ?_, ?_⟩
  · rintro rfl
    exact absurd hd (by decide)
  · rintro rfl
    exact absurd hd (by decide)

/-- What `writeItems` writes has more characters than `items`, and more than any of them. -/
theorem length_items_le {l : Layout} {level : Nat} {opening closing : String}
    {items : List String} {n : Nat} (hopening : BeginsItem opening.toList)
    (hitems : ∀ i ∈ items, BeginsItem i.toList)
    (hn : (writeItems l level opening closing items).toList.length ≤ n + 1) :
    items.length ≤ n ∧ ∀ i ∈ items, i.toList.length ≤ n := by
  obtain rfl | hne := eq_or_ne items []
  · simp
  · have hopens : 0 < opening.toList.length := by
      obtain ⟨c, cs, h, -⟩ := hopening
      simp [h]
    generalize hsep : ("," ++ l.lineBreak (level + 1)).toList = sep
    have hwritten : (sep.intercalate (items.map String.toList)).length ≤ n := by
      rw [writeItems, if_neg (by simpa using hne)] at hn
      simp only [String.toList_append, String.toList_intercalate, List.length_append] at hn hsep
      rw [hsep] at hn
      omega
    refine ⟨?_, fun i hi => ?_⟩
    · have hnonempty : ∀ cs ∈ items.map String.toList, cs ≠ [] := by
        intro cs hcs
        obtain ⟨i, hi, rfl⟩ := List.mem_map.1 hcs
        obtain ⟨c, tail, h, -⟩ := hitems i hi
        simp [h]
      have hcount := length_le_intercalate sep hnonempty
      rw [List.length_map] at hcount
      omega
    · exact (length_le_length_intercalate sep (List.mem_map_of_mem hi)).trans hwritten

/-- What `writeItems` puts between brackets is read item by item, with the number `n` of characters
for a bound. -/
theorem enclosed_writeItems {α : Type} {l : Layout} (hl : l.IsBlank) {level : Nat} {item : Reader α}
    {opening closing : String} {close : Char} (hopening : BeginsItem opening.toList)
    (hclosing : closing.toList = [close]) (hclose : close = ']' ∨ close = '\x7d')
    {items : List (String × α)} {n : Nat}
    (hn : (writeItems l level opening closing (items.map Prod.fst)).toList.length ≤ n + 1)
    (hitems : ∀ i ∈ items, BeginsItem i.1.toList ∧
      (i.1.toList.length ≤ n → Reads item i.1.toList i.2)) (rest : List Char) :
    ∃ tail, (writeItems l level opening closing (items.map Prod.fst)).toList ++ rest =
        opening.toList ++ tail ∧
      enclosed item closing (n + 1) tail = some (items.map Prod.snd, rest) := by
  obtain rfl | hne := eq_or_ne items []
  · exact ⟨close :: rest, by simp [writeItems, hclosing], enclosed_nil hclosing hclose _ rest⟩
  · have hbegins : ∀ s ∈ items.map Prod.fst, BeginsItem s.toList := by
      intro s hs
      obtain ⟨i, hi, rfl⟩ := List.mem_map.1 hs
      exact (hitems i hi).1
    obtain ⟨hcount, hlength⟩ := length_items_le hopening hbegins hn
    have hchars : ∀ i ∈ items.map (fun i => (i.1.toList, i.2)),
        BeginsItem i.1 ∧ Reads item i.1 i.2 := by
      intro i hi
      obtain ⟨j, hj, rfl⟩ := List.mem_map.1 hi
      exact ⟨(hitems j hj).1, (hitems j hj).2 (hlength _ (List.mem_map_of_mem hj))⟩
    have hbound : (items.map fun i => (i.1.toList, i.2)).length ≤ n + 1 := by
      rw [List.length_map] at hcount ⊢
      omega
    have hread := enclosed_intercalate hclosing hclose (hl.lineBreak (level + 1))
      (hl.lineBreak level) (by simpa using hne) hchars hbound rest
    refine ⟨_, ?_, hread.trans ?_⟩
    · simp [writeItems, hne, hclosing, Function.comp_def, String.toList_intercalate]
    · simp [Function.comp_def]

/-- Whatever `v` is written as, at any level, is read as `v`, with the number of characters for a
bound. -/
def Written (l : Layout) (v : Value) : Prop :=
  ∀ level, BeginsItem (writeAt l level v).toList ∧ ∀ n, (writeAt l level v).toList.length ≤ n →
    Reads (value (n + 1)) (writeAt l level v).toList v

theorem written_word {l : Layout} {v : Value} (word : String) {c : Char} (cs : List Char)
    (hword : word.toList = c :: cs) (hwritten : ∀ level, writeAt l level v = word)
    (hc : isSpace c = false ∧ c ≠ ']' ∧ c ≠ '\x7d')
    (hread : ∀ n rest, value (n + 1) (c :: rest) = (expect word >>= fun _ => pure v) (c :: rest)) :
    Written l v := by
  intro level
  rw [hwritten, hword]
  refine ⟨⟨c, cs, rfl, hc⟩, fun n _ rest _ => ?_⟩
  have hexpect := expect_append word rest
  rw [hword, List.cons_append] at hexpect
  rw [List.cons_append, hread, bind_run hexpect]
  rfl

theorem written_null (l : Layout) : Written l .null := by
  refine written_word "null" ['u', 'l', 'l'] rfl (fun _ => by rw [writeAt]) (by decide) ?_
  intro n rest
  rw [value, bind_run (skipSpace_cons rfl _), bind_run (peek?_cons _ _)]
  rfl

theorem written_bool (l : Layout) (b : Bool) : Written l (.bool b) := by
  cases b with
  | true =>
    refine written_word "true" ['r', 'u', 'e'] rfl (fun _ => by rw [writeAt]; rfl) (by decide) ?_
    intro n rest
    rw [value, bind_run (skipSpace_cons rfl _), bind_run (peek?_cons _ _)]
    rfl
  | false =>
    refine written_word "false" ['a', 'l', 's', 'e'] rfl (fun _ => by rw [writeAt]; rfl)
      (by decide) ?_
    intro n rest
    rw [value, bind_run (skipSpace_cons rfl _), bind_run (peek?_cons _ _)]
    rfl

theorem written_nat (l : Layout) {k : Nat} (h : k < UInt64.size) : Written l (.nat k) := by
  intro level
  rw [writeAt, Nat.toString_eq_repr, Nat.toList_repr]
  refine ⟨beginsItem_toDigits k, fun n _ rest hrest => ?_⟩
  have hread := number_toDigits h hrest
  obtain ⟨d, ds, hd, hdigit⟩ := exists_toDigits_eq_cons k
  have hspace : isSpace d = false := isSpace_of_isDigit hdigit
  rw [hd, List.cons_append] at hread ⊢
  rw [value, bind_run (skipSpace_cons hspace _), bind_run (peek?_cons _ _)]
  -- no other kind begins with a digit
  generalize hfirst : some d = first
  split
  case h_7 => exact hread
  all_goals
    rw [Option.some.inj hfirst] at hdigit
    exact absurd hdigit (by decide)

theorem written_text (l : Layout) (s : String) : Written l (.text s) := by
  intro level
  rw [writeAt]
  refine ⟨beginsItem_writeText s, fun n _ rest _ => ?_⟩
  rw [writeText, String.toList_ofList, List.cons_append, List.append_assoc, List.singleton_append,
    value, bind_run (skipSpace_cons rfl _), bind_run (peek?_cons _ _)]
  refine (bind_run (expect_cons rfl _)).trans ?_
  rw [bind_run (text_escape s rest)]
  rfl

theorem written_list {l : Layout} (hl : l.IsBlank) {items : List Value}
    (h : ∀ v ∈ items, Written l v) : Written l (.list items) := by
  intro level
  have hopening : BeginsItem "[".toList := ⟨'[', [], rfl, rfl, by decide, by decide⟩
  have hwritten : writeList l (level + 1) items =
      (items.map fun v => (writeAt l (level + 1) v, v)).map Prod.fst := by
    rw [writeList_eq_map, List.map_map]
    rfl
  rw [writeAt, hwritten]
  have hbegins := beginsItem_writeItems l level hopening "]"
    ((items.map fun v => (writeAt l (level + 1) v, v)).map Prod.fst)
  refine ⟨hbegins, fun n hn rest _ => ?_⟩
  obtain ⟨n, rfl⟩ := hbegins.exists_eq_succ hn
  have hitems : ∀ i ∈ items.map (fun v => (writeAt l (level + 1) v, v)),
      BeginsItem i.1.toList ∧ (i.1.toList.length ≤ n → Reads (value (n + 1)) i.1.toList i.2) := by
    intro i hi
    obtain ⟨v, hv, rfl⟩ := List.mem_map.1 hi
    exact ⟨(h v hv (level + 1)).1, (h v hv (level + 1)).2 n⟩
  obtain ⟨tail, htail, hread⟩ := enclosed_writeItems hl hopening rfl (.inl rfl) hn hitems rest
  rw [htail]
  change value (n + 2) ('[' :: tail) = _
  rw [value, bind_run (skipSpace_cons rfl _), bind_run (peek?_cons _ _)]
  refine (bind_run (expect_cons rfl _)).trans ?_
  rw [bind_run hread, List.map_map]
  exact congrArg (fun vs => some (Value.list vs, rest)) (List.map_id items)

theorem written_record {l : Layout} (hl : l.IsBlank) {entries : List (String × Value)}
    (h : ∀ e ∈ entries, Written l e.2) : Written l (.record entries) := by
  intro level
  have hopening : BeginsItem "\x7b".toList := ⟨'\x7b', [], rfl, rfl, by decide, by decide⟩
  obtain ⟨blanks, hcolon, hblanks⟩ := hl.colon
  generalize hwrite : (fun e : String × Value =>
    writeText e.1 ++ l.colon ++ writeAt l (level + 1) e.2) = write
  have hchars : ∀ e, (write e).toList = '"' :: (e.1.toList.flatMap escape ++
      '"' :: ':' :: (blanks ++ (writeAt l (level + 1) e.2).toList)) := by
    simp [← hwrite, writeText, hcolon]
  have hwritten : writeEntries l (level + 1) entries =
      (entries.map fun e => (write e, (some e.1, e.2))).map Prod.fst := by
    rw [writeEntries_eq_map, hwrite, List.map_map]
    rfl
  rw [writeAt, hwritten]
  have hbegins := beginsItem_writeItems l level hopening "\x7d"
    ((entries.map fun e => (write e, (some e.1, e.2))).map Prod.fst)
  refine ⟨hbegins, fun n hn rest _ => ?_⟩
  obtain ⟨n, rfl⟩ := hbegins.exists_eq_succ hn
  have hitems : ∀ i ∈ entries.map (fun e => (write e, (some e.1, e.2))), BeginsItem i.1.toList ∧
      (i.1.toList.length ≤ n → Reads (entry (value (n + 1))) i.1.toList i.2) := by
    intro i hi
    obtain ⟨e, he, rfl⟩ := List.mem_map.1 hi
    obtain ⟨hvalue, hread⟩ := h e he (level + 1)
    refine ⟨⟨'"', _, hchars e, rfl, by decide, by decide⟩, fun hlength => ?_⟩
    rw [hchars e] at hlength ⊢
    simp only [List.length_cons, List.length_append] at hlength
    exact entry_append (value_append hblanks hvalue (hread n (by omega))) e.1
  obtain ⟨tail, htail, hread⟩ := enclosed_writeItems hl hopening rfl (.inr rfl) hn hitems rest
  rw [htail]
  change value (n + 2) ('\x7b' :: tail) = _
  rw [value, bind_run (skipSpace_cons rfl _), bind_run (peek?_cons _ _)]
  refine (bind_run (expect_cons rfl _)).trans ?_
  rw [bind_run hread, List.map_map]
  exact congrArg (fun v => some (v, rest)) (ofEntries_some entries)

theorem written_of_data {l : Layout} (hl : l.IsBlank) {k : Nat} {v : Value} (h : v.Data k) :
    Written l v := by
  induction h with
  | null => exact written_null l
  | bool b => exact written_bool l b
  | nat h => exact written_nat l h
  | text s => exact written_text l s
  | list _ ih => exact written_list hl ih
  | record _ ih => exact written_record hl ih

/-- Data `v` that was written by `writeAt` is read back by `read?`. -/
theorem read?_writeAt {l : Layout} (hl : l.IsBlank) {v : Value} (h : v.Data maxDepth) :
    read? (writeAt l 0 v) = some v := by
  have hvalue : value ((writeAt l 0 v).length + 1) (writeAt l 0 v).toList = some (v, []) := by
    have hread := (written_of_data hl h 0).2 _ (Nat.le_of_eq String.length_toList) []
      (fun _ h => nomatch h)
    rwa [List.append_nil] at hread
  have hdocument : (do
      let v ← value ((writeAt l 0 v).length + 1)
      skipSpace
      return v.bounded maxDepth : Reader Value) (writeAt l 0 v).toList = some (v, []) := by
    rw [bind_run hvalue]
    change some (v.bounded maxDepth, []) = _
    rw [h.bounded_eq]
  rw [read?, Reader.run?, bind_run hdocument]
  rfl

end Json

end Understudy.Document
