import Mathlib

/-! Texts as the usual string packages treat them: white space around a line, a line split at a
separator of two characters, bytes in hexadecimal, numerals with a sign and a base. -/

namespace Text

/-! White space. -/

/-- The white space of Unicode. -/
def isSpace (c : Char) : Bool :=
  c.toNat ∈ [0x09, 0x0A, 0x0B, 0x0C, 0x0D, 0x20, 0x85, 0xA0, 0x1680, 0x2028, 0x2029, 0x202F, 0x205F,
    0x3000] || (0x2000 ≤ c.toNat && c.toNat ≤ 0x200A)

def trim (l : List Char) : List Char := (l.dropWhile isSpace).rdropWhile isSpace

def trimSpace (s : String) : String := String.ofList (trim s.toList)

def AllSpace (s : String) : Prop := ∀ c ∈ s.toList, isSpace c = true

instance (s : String) : Decidable (AllSpace s) :=
  decidable_of_iff (s.toList.all isSpace = true) (by simp [AllSpace])

/-- No white space at either end, and not empty. -/
structure Trimmed (s : String) : Prop where
  trim : trimSpace s = s
  ne : s ≠ ""

theorem trim_append_left {a l : List Char} (ha : ∀ c ∈ a, isSpace c = true) :
    trim (a ++ l) = trim l := by
  simp only [trim]
  rw [List.dropWhile_append_of_pos ha]

theorem rdropWhile_append_right {p : Char → Bool} {l b : List Char} (hb : ∀ c ∈ b, p c = true) :
    (l ++ b).rdropWhile p = l.rdropWhile p := by
  simp only [List.rdropWhile, List.reverse_append]
  rw [List.dropWhile_append_of_pos fun c hc => hb c (List.mem_reverse.1 hc)]

theorem trim_append_right {l b : List Char} (hb : ∀ c ∈ b, isSpace c = true) :
    trim (l ++ b) = trim l := by
  simp only [trim]
  by_cases hl : ∀ c ∈ l, isSpace c = true
  · have hall : ∀ c ∈ l ++ b, isSpace c = true := by
      intro c hc
      rcases List.mem_append.1 hc with h | h
      · exact hl c h
      · exact hb c h
    rw [List.dropWhile_eq_nil_iff.2 hall, List.dropWhile_eq_nil_iff.2 hl]
  · have hne : l.dropWhile isSpace ≠ [] := fun h => hl (List.dropWhile_eq_nil_iff.1 h)
    rw [List.dropWhile_append, if_neg (by simpa using hne), rdropWhile_append_right hb]

theorem trim_trim (l : List Char) : trim (trim l) = trim l := by
  have hhead : (trim l).dropWhile isSpace = trim l := by
    simp only [trim]
    set d := l.dropWhile isSpace with hd
    have hdd : d.dropWhile isSpace = d := by rw [hd, List.dropWhile_idempotent]
    rw [List.dropWhile_eq_self_iff] at hdd ⊢
    intro hl
    have hlen : 0 < d.length := lt_of_lt_of_le hl (List.rdropWhile_prefix isSpace (l := d)).length_le
    have hsame := List.IsPrefix.getElem (List.rdropWhile_prefix isSpace (l := d)) hl
    simpa [hsame] using hdd hlen
  conv_lhs => rw [trim, hhead]
  simp only [trim]
  rw [List.rdropWhile_idempotent]

@[simp] theorem trimSpace_trimSpace (s : String) : trimSpace (trimSpace s) = trimSpace s := by
  simp only [trimSpace, String.toList_ofList, trim_trim]

theorem trimSpace_append_left {a s : String} (ha : AllSpace a) : trimSpace (a ++ s) = trimSpace s := by
  simp only [trimSpace, String.toList_append, trim_append_left ha]

theorem AllSpace.append {a b : String} (ha : AllSpace a) (hb : AllSpace b) : AllSpace (a ++ b) := by
  intro c hc
  rw [String.toList_append] at hc
  rcases List.mem_append.1 hc with h | h
  · exact ha c h
  · exact hb c h

theorem trimSpace_append_right {s b : String} (hb : AllSpace b) : trimSpace (s ++ b) = trimSpace s := by
  simp only [trimSpace, String.toList_append, trim_append_right hb]

theorem dropWhile_eq_self_iff_head (p : Char → Bool) (l : List Char) :
    l.dropWhile p = l ↔ ∀ c ∈ l.head?, p c = false := by
  cases l with
  | nil => simp
  | cons a t =>
    rw [List.dropWhile_eq_self_iff]
    simp

theorem rdropWhile_eq_self_iff_last (p : Char → Bool) (l : List Char) :
    l.rdropWhile p = l ↔ ∀ c ∈ l.getLast?, p c = false := by
  rw [List.rdropWhile, List.reverse_eq_iff, dropWhile_eq_self_iff_head, List.head?_reverse]

theorem trim_eq_self_iff (l : List Char) :
    trim l = l ↔ (∀ c ∈ l.head?, isSpace c = false) ∧ ∀ c ∈ l.getLast?, isSpace c = false := by
  rw [← dropWhile_eq_self_iff_head, ← rdropWhile_eq_self_iff_last]
  constructor
  · intro h
    -- neither end can have lost anything
    have hle := (List.rdropWhile_prefix isSpace (l := l.dropWhile isSpace)).length_le
    have hsuf := List.dropWhile_suffix isSpace (l := l)
    have hlen : l.length = ((l.dropWhile isSpace).rdropWhile isSpace).length := by
      conv_lhs => rw [← h, trim]
    have hdrop : l.dropWhile isSpace = l := hsuf.eq_of_length (by have := hsuf.length_le; omega)
    refine ⟨hdrop, ?_⟩
    rw [trim, hdrop] at h
    exact h
  · rintro ⟨hhead, hlast⟩
    rw [trim, hhead, hlast]

theorem trimSpace_eq_self_iff (s : String) : trimSpace s = s ↔ trim s.toList = s.toList := by
  rw [← String.toList_inj, trimSpace, String.toList_ofList]

/-- A text that ends in a trimmed one and starts without white space. -/
theorem Trimmed.append {a b : String} (hb : Trimmed b) (hne : a ≠ "")
    (ha : a.toList.head?.any isSpace = false) : Trimmed (a ++ b) := by
  have hal : a.toList ≠ [] := by simpa using hne
  have hbl : b.toList ≠ [] := by simpa using hb.ne
  refine ⟨?_, by simp [hne]⟩
  rw [trimSpace_eq_self_iff, String.toList_append, trim_eq_self_iff, List.head?_append_of_ne_nil _ hal,
    List.getLast?_append_of_ne_nil _ hbl]
  have hb' := (trim_eq_self_iff b.toList).1 ((trimSpace_eq_self_iff b).1 hb.trim)
  refine ⟨fun c hc => ?_, hb'.2⟩
  rw [Option.mem_def.1 hc] at ha
  exact ha

theorem Trimmed.indent {a s : String} (h : Trimmed s) (ha : AllSpace a) : trimSpace (a ++ s) = s := by
  rw [trimSpace_append_left ha, h.trim]

theorem trimSpace_indented {ind a t : String} (hind : AllSpace ind) (ha : AllSpace a) (ht : Trimmed t) :
    trimSpace (ind ++ (a ++ t)) = t := by
  rw [trimSpace_append_left hind, ht.indent ha]

theorem allSpace_four : AllSpace "    " := by decide

theorem allSpace_eight : AllSpace "        " := by decide

theorem Trimmed.tagged {line a tag s : String} (hs : Trimmed s) (hline : line = a ++ tag)
    (ha : AllSpace a) (hne : tag ≠ "") (htag : tag.toList.head?.any isSpace = false) :
    trimSpace (line ++ s) = tag ++ s := by
  rw [hline, String.append_assoc]
  exact (hs.append hne htag).indent ha

/-- The text without the white space at its end. -/
def trimRight (s : String) : String := String.ofList (s.toList.rdropWhile isSpace)

/-- A tag in front keeps the white space that follows it. -/
theorem trimSpace_tagged {a tag s : String} (ha : AllSpace a) (hne : tag ≠ "")
    (htag : tag.toList.head?.any isSpace = false) (hs : ¬ AllSpace s) :
    trimSpace (a ++ (tag ++ s)) = tag ++ trimRight s := by
  have hdrop : (tag.toList ++ s.toList).dropWhile isSpace = tag.toList ++ s.toList := by
    rw [dropWhile_eq_self_iff_head, List.head?_append_of_ne_nil _ (by simpa using hne)]
    intro c hc
    rw [Option.mem_def.1 hc] at htag
    exact htag
  have hend : s.toList.reverse.dropWhile isSpace ≠ [] := by
    rw [Ne, List.dropWhile_eq_nil_iff]
    intro hall
    exact hs fun c hc => hall c (List.mem_reverse.2 hc)
  rw [trimSpace_append_left ha, trimSpace, trim, String.toList_append, hdrop, ← String.toList_inj,
    String.toList_append, trimRight, String.toList_ofList, String.toList_ofList, List.rdropWhile,
    List.reverse_append, List.dropWhile_append, if_neg (by simpa using hend), List.reverse_append,
    List.reverse_reverse, List.rdropWhile]

theorem isSpace_of_visible {c : Char} (h : 0x20 < c.toNat) (h' : c.toNat < 0x7F) : isSpace c = false := by
  simp only [isSpace, List.mem_cons, List.not_mem_nil, or_false, Bool.or_eq_false_iff,
    Bool.and_eq_false_iff, decide_eq_false_iff_not]
  omega

theorem visible_of_isAlphanum {c : Char} (h : c.isAlphanum = true) : 0x2F < c.toNat ∧ c.toNat < 0x7F := by
  simp only [Char.isAlphanum, Char.isAlpha, Char.isUpper, Char.isLower, Char.isDigit, Bool.or_eq_true,
    Bool.and_eq_true, decide_eq_true_eq, ge_iff_le, UInt32.le_iff_toNat_le] at h
  have hval : c.toNat = c.val.toNat := rfl
  simp at h
  omega

theorem trimmed_of_no_space {s : String} (hne : s ≠ "") (h : ∀ c ∈ s.toList, isSpace c = false) :
    Trimmed s := by
  refine ⟨?_, hne⟩
  rw [trimSpace_eq_self_iff, trim_eq_self_iff]
  exact ⟨fun c hc => h c (List.mem_of_mem_head? hc), fun c hc => h c (List.mem_of_getLast? hc)⟩

/-! What follows a tag, and the lines of a text. -/

/-- The text after `tag`, if `s` starts with it. -/
def after (tag s : String) : Option String :=
  if tag.toList.isPrefixOf s.toList then some (String.ofList (s.toList.drop tag.toList.length)) else none

@[simp] theorem after_append (tag s : String) : after tag (tag ++ s) = some s := by
  have hpre : tag.toList.isPrefixOf (tag ++ s).toList = true := by simp
  rw [after, if_pos hpre, String.toList_append, List.drop_left, String.ofList_toList]

theorem after_eq_some_iff {tag s t : String} : after tag s = some t ↔ s = tag ++ t := by
  constructor
  · intro h
    unfold after at h
    split_ifs at h with hpre
    obtain ⟨r, hr⟩ := List.isPrefixOf_iff_prefix.1 hpre
    rw [← hr, List.drop_left, Option.some.injEq] at h
    rw [← String.toList_inj, String.toList_append, ← hr, ← h, String.toList_ofList]
  · rintro rfl
    exact after_append tag t

def linesOf (s : String) : List String := (s.toList.splitOn '\n').map String.ofList

theorem linesOf_line {s : String} (h : '\n' ∉ s.toList) : linesOf s = [s] := by
  simp [linesOf, List.splitOn_eq_singleton h]

theorem linesOf_append (s t : String) : linesOf (s ++ "\n" ++ t) = linesOf s ++ linesOf t := by
  have hl : (s ++ "\n" ++ t).toList = s.toList ++ '\n' :: t.toList := by simp
  rw [linesOf, hl, List.splitOn_append_cons_self]
  simp [linesOf]

/-- The lines of parts that end with a carriage return and a newline each. -/
theorem linesOf_crlf (ss : List String) (hne : ss ≠ []) :
    linesOf (String.intercalate "\r\n" ss ++ "\r\n") =
      ss.flatMap (fun x => linesOf (x ++ "\r")) ++ [""] := by
  have hend : ∀ x t : String, linesOf (x ++ "\r\n" ++ t) = linesOf (x ++ "\r") ++ linesOf t := by
    intro x t
    rw [← linesOf_append, show "\r\n" = "\r" ++ "\n" from rfl, ← String.append_assoc]
  induction ss with
  | nil => exact absurd rfl hne
  | cons x ss ih =>
    cases ss with
    | nil =>
      have h := hend x ""
      rw [String.append_empty] at h
      rw [String.intercalate_singleton, h]
      simp [linesOf]
    | cons y ss =>
      rw [String.intercalate_cons_cons, String.append_assoc, hend, ih (by simp)]
      simp

/-! Splitting at a separator of two characters. -/

theorem infix_pair_cons {α : Type} {a b x : α} {l : List α} :
    [a, b] <:+: x :: l ↔ (x = a ∧ l.head? = some b) ∨ [a, b] <:+: l := by
  rw [List.infix_cons_iff, List.cons_prefix_cons]
  cases l with
  | nil => simp
  | cons y t =>
    rw [List.cons_prefix_cons]
    simp [eq_comm]

section Split

variable {α : Type} [DecidableEq α]

/-- The parts between the occurrences of `a` followed by `b`, from the left. -/
def splitPair (a b : α) : List α → List (List α)
  | [] => [[]]
  | [x] => [[x]]
  | x :: y :: t =>
    if x = a ∧ y = b then [] :: splitPair a b t else (splitPair a b (y :: t)).modifyHead (x :: ·)

/-- A list without the separator is its only part; any other one is cut at the first. -/
theorem splitPair_cases (a b : α) (l : List α) :
    (¬ [a, b] <:+: l ∧ splitPair a b l = [l]) ∨
    ∃ x y, ¬ [a, b] <:+: x ∧ l = x ++ a :: b :: y ∧ splitPair a b l = x :: splitPair a b y := by
  induction l using splitPair.induct a b with
  | case1 => exact .inl ⟨by simp, rfl⟩
  | case2 x => exact .inl ⟨by simp [infix_pair_cons], rfl⟩
  | case3 x y t h =>
    obtain ⟨rfl, rfl⟩ := h
    exact .inr ⟨[], t, by simp, rfl, by simp [splitPair]⟩
  | case4 x y t h ih =>
    rw [splitPair, if_neg h]
    rcases ih with ⟨hno, heq⟩ | ⟨u, v, hno, heq, hsplit⟩
    · refine .inl ⟨?_, by rw [heq]; rfl⟩
      rw [infix_pair_cons]
      simpa [hno] using h
    · refine .inr ⟨x :: u, v, ?_, by rw [heq]; rfl, by rw [hsplit]; rfl⟩
      rw [infix_pair_cons]
      rintro (⟨rfl, hb⟩ | hu)
      · -- the separator would begin at `x`
        have hy : (y :: t).head? = some b := by
          rw [heq, List.head?_append, hb]
          rfl
        exact h ⟨rfl, by simpa using hy⟩
      · exact hno hu

theorem splitPair_ne_nil (a b : α) (l : List α) : splitPair a b l ≠ [] := by
  rcases splitPair_cases a b l with ⟨-, h⟩ | ⟨x, y, -, -, h⟩ <;> simp [h]

theorem splitPair_append {a b : α} (hab : a ≠ b) {x : List α} (hx : ¬ [a, b] <:+: x) (y : List α) :
    splitPair a b (x ++ a :: b :: y) = x :: splitPair a b y := by
  induction x with
  | nil => simp [splitPair]
  | cons c x ih =>
    rw [infix_pair_cons, not_or] at hx
    have hstep : splitPair a b (c :: (x ++ a :: b :: y)) =
        (splitPair a b (x ++ a :: b :: y)).modifyHead (c :: ·) := by
      cases x with
      | nil => simp [splitPair, hab]
      | cons d x =>
        have hcd : ¬ (c = a ∧ d = b) := by simpa using hx.1
        rw [List.cons_append, splitPair, if_neg hcd]
    rw [List.cons_append, hstep, ih hx.2]
    rfl

theorem splitPair_eq_single {a b : α} {l x : List α} (h : splitPair a b l = [x]) :
    x = l ∧ ¬ [a, b] <:+: l := by
  rcases splitPair_cases a b l with ⟨hno, heq⟩ | ⟨u, v, -, -, heq⟩
  · rw [heq] at h
    exact ⟨by simpa using h.symm, hno⟩
  · rw [heq] at h
    exact absurd (List.cons.inj h).2 (splitPair_ne_nil a b v)

/-- Two parts: the separator occurs once. -/
theorem splitPair_eq_two_iff {a b : α} (hab : a ≠ b) {l x y : List α} :
    splitPair a b l = [x, y] ↔ l = x ++ a :: b :: y ∧ ¬ [a, b] <:+: x ∧ ¬ [a, b] <:+: y := by
  constructor
  · intro h
    rcases splitPair_cases a b l with ⟨-, heq⟩ | ⟨u, v, hu, hl, heq⟩
    · rw [heq] at h
      simp at h
    · rw [heq] at h
      obtain ⟨rfl, hv⟩ := List.cons.inj h
      obtain ⟨rfl, hy⟩ := splitPair_eq_single hv
      exact ⟨hl, hu, hy⟩
  · rintro ⟨rfl, hx, hy⟩
    rw [splitPair_append hab hx]
    rcases splitPair_cases a b y with ⟨-, heq⟩ | ⟨u, v, -, rfl, -⟩
    · rw [heq]
    · exact absurd ⟨u, v, by simp⟩ hy

end Split

/-! Hexadecimal. -/

/-- The value of a digit, in either case. -/
def digitValue (c : Char) : Option ℕ :=
  if '0' ≤ c ∧ c ≤ '9' then some (c.toNat - 48)
  else if 'a' ≤ c ∧ c ≤ 'z' then some (c.toNat - 97 + 10)
  else if 'A' ≤ c ∧ c ≤ 'Z' then some (c.toNat - 65 + 10)
  else none

def digitIn (base : ℕ) (c : Char) : Option ℕ := (digitValue c).filter (· < base)

def decodeHex : List Char → Option (List UInt8)
  | [] => some []
  | [_] => none
  | h :: l :: t =>
    match digitIn 16 h, digitIn 16 l, decodeHex t with
    | some h, some l, some bs => some (UInt8.ofNat (16 * h + l) :: bs)
    | _, _, _ => none

def hexByte (x : UInt8) : List Char := [Nat.digitChar (x.toNat / 16), Nat.digitChar (x.toNat % 16)]

/-- The lowest `k` hexadecimal digits of a number, the highest one first. -/
def hexDigits : ℕ → ℕ → List Char
  | 0, _ => []
  | k + 1, n => hexDigits k (n / 16) ++ [Nat.digitChar (n % 16)]

/-- The lowest `k` bytes of a number, the highest one first. -/
def bytesOf : ℕ → ℕ → List UInt8
  | 0, _ => []
  | k + 1, n => bytesOf k (n / 256) ++ [UInt8.ofNat (n % 256)]

theorem digitIn_digitChar_aux : ∀ n ∈ List.range 16, digitIn 16 (Nat.digitChar n) = some n := by
  decide

theorem digitIn_digitChar {n : ℕ} (h : n < 16) : digitIn 16 (Nat.digitChar n) = some n :=
  digitIn_digitChar_aux n (List.mem_range.2 h)

@[simp] theorem decodeHex_bytes (bs : List UInt8) : decodeHex (bs.flatMap hexByte) = some bs := by
  induction bs with
  | nil => rfl
  | cons x bs ih =>
    have hx : x.toNat < 256 := x.toNat_lt
    have hval : 16 * (x.toNat / 16) + x.toNat % 16 = x.toNat := by omega
    simp only [List.flatMap_cons, hexByte, List.cons_append, List.nil_append, decodeHex]
    rw [digitIn_digitChar (by omega), digitIn_digitChar (by omega), ih]
    simp [hval]

/-- The digits of a number are those of its bytes. -/
theorem hexDigits_bytes (k n : ℕ) : hexDigits (2 * k) n = (bytesOf k n).flatMap hexByte := by
  induction k generalizing n with
  | zero => rfl
  | succ k ih =>
    have hb : (UInt8.ofNat (n % 256)).toNat = n % 256 := by
      rw [UInt8.toNat_ofNat']
      omega
    have hdiv : n / 16 / 16 = n / 256 := by omega
    have hhi : n / 16 % 16 = n % 256 / 16 := by omega
    have hlo : n % 16 = n % 256 % 16 := by omega
    rw [show 2 * (k + 1) = 2 * k + 1 + 1 from rfl, hexDigits, hexDigits, hdiv, ih, bytesOf,
      List.flatMap_append, hhi, hlo]
    simp [hexByte, hb]

theorem isSpace_digitChar_aux : ∀ n ∈ List.range 16, isSpace (Nat.digitChar n) = false := by
  decide

theorem isSpace_digitChar {n : ℕ} (h : n < 16) : isSpace (Nat.digitChar n) = false :=
  isSpace_digitChar_aux n (List.mem_range.2 h)

theorem mem_hexDigits {k n : ℕ} {c : Char} (h : c ∈ hexDigits k n) : ∃ d < 16, c = Nat.digitChar d := by
  induction k generalizing n with
  | zero => cases h
  | succ k ih =>
    rw [hexDigits] at h
    rcases List.mem_append.1 h with h | h
    · exact ih h
    · exact ⟨n % 16, Nat.mod_lt n (by omega), List.mem_singleton.1 h⟩

@[simp] theorem length_bytesOf (k n : ℕ) : (bytesOf k n).length = k := by
  induction k generalizing n with
  | zero => rfl
  | succ k ih => simp [bytesOf, ih]

/-- The number that bytes give, the highest one first. -/
def ofBytes (l : List UInt8) : ℕ := l.foldl (fun n b => 256 * n + b.toNat) 0

theorem ofBytes_append (l : List UInt8) (b : UInt8) : ofBytes (l ++ [b]) = 256 * ofBytes l + b.toNat := by
  simp [ofBytes]

theorem ofBytes_cons (b : UInt8) (l : List UInt8) :
    ofBytes (b :: l) = b.toNat * 256 ^ l.length + ofBytes l := by
  induction l using List.reverseRecOn with
  | nil => simp [ofBytes]
  | append_singleton l c ih =>
    rw [← List.cons_append, ofBytes_append, ih, ofBytes_append, List.length_append, List.length_singleton,
      Nat.pow_succ]
    ring

theorem ofBytes_bytesOf (k n : ℕ) : ofBytes (bytesOf k n) = n % 256 ^ k := by
  induction k generalizing n with
  | zero => simp [bytesOf, ofBytes, Nat.mod_one]
  | succ k ih =>
    have hb : (UInt8.ofNat (n % 256)).toNat = n % 256 := by
      rw [UInt8.toNat_ofNat']
      omega
    rw [bytesOf, ofBytes_append, ih, hb, Nat.pow_succ', Nat.mod_mul]
    omega

/-! Numerals. -/

/-- The number that digits give; there must be one. -/
def magnitude (base : ℕ) (l : List Char) : Option ℕ :=
  if l = [] then none else l.foldlM (fun n c => (digitIn base c).map (base * n + ·)) 0

/-- A numeral that tells its base: hexadecimal after `0x`, octal after `0`, otherwise decimal. Go has
read numerals so before version 1.13. -/
def basedMagnitude : List Char → Option ℕ
  | '0' :: 'x' :: t => magnitude 16 t
  | '0' :: 'X' :: t => magnitude 16 t
  | '0' :: t => magnitude 8 ('0' :: t)
  | l => magnitude 10 l

/-- A numeral after an optional sign. -/
def signed (read : List Char → Option ℕ) : List Char → Option ℤ
  | '-' :: t => (read t).map fun n => -(n : ℤ)
  | '+' :: t => (read t).map fun n => (n : ℤ)
  | l => (read l).map fun n => (n : ℤ)

theorem magnitude_hexDigits (k n : ℕ) : magnitude 16 (hexDigits (k + 1) n) = some (n % 16 ^ (k + 1)) := by
  have hfold : ∀ k n, (hexDigits k n).foldlM (fun n c => (digitIn 16 c).map (16 * n + ·)) 0 =
      some (n % 16 ^ k) := by
    intro k
    induction k with
    | zero => intro n; simp [hexDigits, Nat.mod_one]
    | succ k ih =>
      intro n
      rw [hexDigits, List.foldlM_append, ih]
      simp only [Option.bind_eq_bind, Option.bind_some, List.foldlM_cons, List.foldlM_nil,
        digitIn_digitChar (Nat.mod_lt n (by omega)), Option.map_some, Option.pure_def]
      rw [Nat.pow_succ', Nat.mod_mul, Nat.add_comm]
  have hne : hexDigits (k + 1) n ≠ [] := by simp [hexDigits]
  rw [magnitude, if_neg hne, hfold]

theorem digitIn_ten_aux : ∀ n ∈ List.range 10, digitIn 10 (Nat.digitChar n) = some n := by
  decide

theorem mem_toDigits {n : ℕ} {c : Char} (h : c ∈ Nat.toDigits 10 n) :
    ∃ d < 10, c = Nat.digitChar d := by
  induction n using Nat.strong_induction_on with
  | _ n ih =>
    rw [Nat.toDigits_eq_if (by omega)] at h
    split_ifs at h with hn
    · exact ⟨n, hn, List.mem_singleton.1 h⟩
    · rcases List.mem_append.1 h with h | h
      · exact ih (n / 10) (by omega) h
      · exact ⟨n % 10, Nat.mod_lt n (by omega), List.mem_singleton.1 h⟩

theorem magnitude_toDigits (n : ℕ) : magnitude 10 (Nat.toDigits 10 n) = some n := by
  have hfold : ∀ n, (Nat.toDigits 10 n).foldlM (fun n c => (digitIn 10 c).map (10 * n + ·)) 0 =
      some n := by
    intro n
    induction n using Nat.strong_induction_on with
    | _ n ih =>
      have hd := digitIn_ten_aux (n % 10) (List.mem_range.2 (Nat.mod_lt n (by omega)))
      rw [Nat.toDigits_eq_if (by omega)]
      split_ifs with h
      · have hmod : n % 10 = n := Nat.mod_eq_of_lt h
        rw [hmod] at hd
        simp [hd]
      · rw [List.foldlM_append, ih (n / 10) (by omega)]
        simp only [Option.bind_eq_bind, Option.bind_some, List.foldlM_cons, List.foldlM_nil, hd,
          Option.map_some, Option.pure_def]
        congr 1
        omega
  rw [magnitude, if_neg Nat.toDigits_ne_nil, hfold]

theorem signed_hexDigits (k n : ℕ) :
    signed basedMagnitude ('0' :: 'x' :: hexDigits (k + 1) n) = some ((n % 16 ^ (k + 1) : ℕ) : ℤ) := by
  simp [signed, basedMagnitude, magnitude_hexDigits]

theorem signed_toDigits (n : ℕ) : signed (magnitude 10) (Nat.toDigits 10 n) = some (n : ℤ) := by
  have hdig : ∀ c ∈ Nat.toDigits 10 n, c.isDigit = true :=
    fun c hc => Nat.isDigit_of_mem_toDigits (by omega) (by omega) hc
  have hmag := magnitude_toDigits n
  cases h : Nat.toDigits 10 n with
  | nil => exact absurd h Nat.toDigits_ne_nil
  | cons c t =>
    rw [h] at hdig hmag
    have hc := hdig c List.mem_cons_self
    unfold signed
    split
    · rename_i heq
      cases heq
      simp at hc
    · rename_i heq
      cases heq
      simp at hc
    · rw [hmag]
      rfl

end Text
