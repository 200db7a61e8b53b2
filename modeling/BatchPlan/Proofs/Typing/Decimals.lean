import BatchPlan.Binding.TypeName
import BatchPlan.Proofs.Meaning.Fields
import BatchPlan.Sql.Grammar.TypeName

namespace BatchPlan

variable {n : Nat} {a b : List Char} {c : Char} {args : List Nat}

theorem digitsValue_toDigits (n : Nat) : digitsValue (Nat.toDigits 10 n) = n := by
  have hstep : (fun (n : Nat) (c : Char) => n * 10 + (c.toNat - '0'.toNat)) =
      fun n c => 10 * n + (c.toNat - '0'.toNat) := by
    simp only [Nat.mul_comm]
  unfold digitsValue
  rw [hstep]
  exact Nat.ofDigitChars_ten_toDigits

theorem digitsBelow?_toDigits (bound n : Nat) :
    digitsBelow? bound (Nat.toDigits 10 n) = if n < bound then some n else none := by
  have hdigits : (Nat.toDigits 10 n).all Char.isDigit :=
    List.all_eq_true.2 fun c => Nat.isDigit_of_mem_toDigits (by omega) (by omega)
  simp [digitsBelow?, digitsValue_toDigits, hdigits]

/-- Upper case leaves digits alone, and they are neither blanks nor marks. -/
theorem digit_plain (h : c ∈ Nat.toDigits 10 n) :
    c.toUpper = c ∧ Text.isBlank c = false ∧ c ≠ ',' ∧ c ≠ '(' ∧ c ≠ ')' := by
  have hdigit := Nat.isDigit_of_mem_toDigits (by omega) (by omega) h
  have htable : ∀ k : Fin 10, (Char.ofNat (48 + k)).toUpper = Char.ofNat (48 + k) ∧
      Text.isBlank (Char.ofNat (48 + k)) = false ∧ Char.ofNat (48 + k) ≠ ',' ∧
      Char.ofNat (48 + k) ≠ '(' ∧ Char.ofNat (48 + k) ≠ ')' := by
    decide
  have hrange : 48 ≤ c.toNat ∧ c.toNat ≤ 57 := by
    simpa [Char.isDigit, UInt32.le_iff_toNat_le] using hdigit
  have hc := htable ⟨c.toNat - 48, by omega⟩
  rwa [show 48 + (c.toNat - 48) = c.toNat by omega, Char.ofNat_toNat] at hc

theorem dropWhile_eq_self {p : Char → Bool} (h : ∀ c ∈ a, p c = false) : a.dropWhile p = a := by
  cases a with
  | nil => rfl
  | cons c a => simp [h c]

theorem trimBlanks_eq_self (h : ∀ c ∈ a, Text.isBlank c = false) : Text.trimBlanks a = a := by
  rw [Text.trimBlanks, dropWhile_eq_self h, dropWhile_eq_self (by simpa using h),
    List.reverse_reverse]

theorem commaParts_append {part : List Char} {rest : List (List Char)} (ha : ',' ∉ a)
    (hb : commaParts b = part :: rest) : commaParts (a ++ b) = (a ++ part) :: rest := by
  induction a with
  | nil => exact hb
  | cons c a ih =>
    obtain ⟨hc, ha⟩ : c ≠ ',' ∧ ',' ∉ a := by simpa [eq_comm] using ha
    unfold commaParts at ih ⊢
    rw [List.cons_append, List.foldr_cons, if_neg hc, ih ha]
    rfl

/-- The arguments of a type, as they are written: the precision of a decimal type, and then its
scale. -/
def argText (args : List Nat) : String :=
  if args = [] then "" else "(" ++ ",".intercalate (args.map toString) ++ ")"

def argDigits : List Nat → List Char
  | [] => []
  | [n] => Nat.toDigits 10 n
  | n :: rest => Nat.toDigits 10 n ++ ',' :: argDigits rest

theorem toList_argText (args : List Nat) :
    (argText args).toList = if args = [] then [] else '(' :: (argDigits args ++ [')']) := by
  have hargs : (",".intercalate (args.map toString)).toList = argDigits args := by
    fun_induction argDigits args with
    | case1 => simp
    | case2 n => simp
    | case3 n rest hrest ih =>
      cases rest with
      | nil => simp at hrest
      | cons m rest => simpa using ih
  unfold argText
  split
  · rfl
  · simp [hargs]

theorem argDigits_plain (h : c ∈ argDigits args) : c.toUpper = c ∧ c ≠ '(' ∧ c ≠ ')' := by
  fun_induction argDigits args with
  | case1 => cases h
  | case2 n => exact ⟨(digit_plain h).1, (digit_plain h).2.2.2⟩
  | case3 n rest _ ih =>
    obtain h | rfl | h : c ∈ Nat.toDigits 10 n ∨ c = ',' ∨ c ∈ argDigits rest := by simpa using h
    · exact ⟨(digit_plain h).1, (digit_plain h).2.2.2⟩
    · decide
    · exact ih h

theorem toUpper_of_mem_argText (h : c ∈ (argText args).toList) : c.toUpper = c := by
  rw [toList_argText] at h
  split at h
  · cases h
  · obtain rfl | h | rfl : c = '(' ∨ c ∈ argDigits args ∨ c = ')' := by simpa using h
    · decide
    · exact (argDigits_plain h).1
    · decide

theorem numbers_read (args : List Nat) :
    ((commaParts (argDigits args)).filterMap fun cs => digitsBelow? 256 (Text.trimBlanks cs)) =
      args.filter (· < 256) := by
  have hcomma (n : Nat) : ',' ∉ Nat.toDigits 10 n := fun h => (digit_plain h).2.2.1 rfl
  have hread (n : Nat) : digitsBelow? 256 (Text.trimBlanks (Nat.toDigits 10 n)) =
      if n < 256 then some n else none := by
    rw [trimBlanks_eq_self fun c h => (digit_plain h).2.1, digitsBelow?_toDigits]
  fun_induction argDigits args with
  | case1 => rfl
  | case2 n =>
    rw [← List.append_nil (Nat.toDigits 10 n), commaParts_append (hcomma n) rfl, List.append_nil]
    grind
  | case3 n rest _ ih =>
    have hparts : commaParts (',' :: argDigits rest) = [] :: commaParts (argDigits rest) := rfl
    rw [commaParts_append (hcomma n) hparts, List.append_nil]
    grind

namespace DataType

open Sql.Reader

variable {keyword : String}

def decimalName (keyword shape : String) (args : List Nat) : Sql.TypeName :=
  standardType keyword shape { text := argText args }

/-- What stands before a parenthesis and in it. -/
theorem split_text {word : List Char} (hword : ∀ c ∈ word, c ≠ '(') (args : List Nat) :
    (word ++ (argText args).toList).takeWhile (· != '(') = word ∧
      (((word ++ (argText args).toList).drop (word.length + 1)).reverse.dropWhile
        (· == ')')).reverse = argDigits args := by
  have hdrop : word.drop (word.length + 1) = [] := List.drop_eq_nil_of_le (by omega)
  have hdigits : (argDigits args).reverse.dropWhile (· == ')') = (argDigits args).reverse :=
    dropWhile_eq_self fun c hc => by simpa using (argDigits_plain (List.mem_reverse.1 hc)).2.2
  rw [List.takeWhile_append_of_pos (by simpa using hword), List.drop_append, hdrop,
    toList_argText]
  split
  next h => simp [h, argDigits]
  · simp [hdigits]

theorem ofName_decimal (hkeyword : keyword ∈ ["DECIMAL", "NUMERIC", "DEC"]) (shape : String)
    (args : List Nat) : ofName (decimalName keyword shape args) =
      .ok (decimalOf (args.filter (· < 256))) := by
  have hplain : (∀ c ∈ keyword.toList, c.toUpper = c ∧ c ≠ '(') ∧
      ∀ numbers, ofBase? (String.ofList (Text.trimBlanks keyword.toList)) numbers =
        some (decimalOf numbers) := by
    simp only [List.mem_cons, List.not_mem_nil, or_false] at hkeyword
    obtain rfl | rfl | rfl := hkeyword
    · exact ⟨by simp, fun _ => rfl⟩
    · exact ⟨by simp, fun _ => rfl⟩
    · exact ⟨by simp, fun _ => rfl⟩
  have hupper : (Text.upperAscii (keyword ++ argText args)).toList =
      keyword.toList ++ (argText args).toList := by
    rw [Text.upperAscii, String.toList_map, String.toList_append]
    refine (List.map_congr_left fun c hc => ?_).trans (List.map_id _)
    exact (List.mem_append.1 hc).elim (fun hc => (hplain.1 c hc).1) toUpper_of_mem_argText
  obtain ⟨hbase, hargs⟩ := split_text (fun c hc => (hplain.1 c hc).2) args
  unfold ofName
  simp only [decimalName, standardType, Sql.TypeName.text, hupper, hbase, hargs,
    numbers_read, hplain.2]

/-- The numbers of a byte among the arguments are taken in their order, and both numbers are kept
exactly if the precision is at most 255 and the scale at most 127. -/
theorem decimal_kept_iff (keyword : String) (hkeyword : keyword ∈ ["DECIMAL", "NUMERIC", "DEC"])
    (shape : String) (args : List Nat) :
    ∃ p s, ofName (decimalName keyword shape args) = .ok (.decimal128 p s) ∧
      .decimal128 p s = decimalOf (args.filter (· < 256)) ∧
      (p.toNat = args.headD 18 ∧ s.toInt = args.getD 1 0 ↔ args.headD 18 < 256 ∧
        args.getD 1 0 < 128) := by
  refine ⟨_, _, ofName_decimal hkeyword shape args, rfl, ?_⟩
  constructor
  · rintro ⟨hp, hs⟩
    refine ⟨hp ▸ UInt8.toNat_lt _, ?_⟩
    have hbound := Int8.toInt_lt (((args.filter (· < 256)).drop 1).headD 0 : Int).toInt8
    omega
  · rintro ⟨hp, hs⟩
    have hkept : (args.filter (· < 256)).headD 18 = args.headD 18 ∧
        ((args.filter (· < 256)).drop 1).headD 0 = args.getD 1 0 := by
      rcases args with _ | ⟨p, _ | ⟨s, rest⟩⟩ <;> grind
    rw [hkept.1, hkept.2]
    exact ⟨UInt8.toNat_ofNat_of_lt' hp, Int8.toInt_ofInt_of_le (by omega) (Int.ofNat_lt.2 hs)⟩

theorem decimal_kept : ∃ p s, ofName (decimalName "NUMERIC" "Numeric" [38, 10]) =
    .ok (.decimal128 p s) ∧ p.toNat = 38 ∧ s.toInt = 10 := by
  obtain ⟨p, s, hname, -, hkept⟩ := decimal_kept_iff "NUMERIC" (by simp) "Numeric" [38, 10]
  exact ⟨p, s, hname, hkept.2 (by decide)⟩

/-- The precision is passed over, and the scale stands for it. -/
theorem decimal_shifted : ofName (decimalName "DECIMAL" "Decimal" [300, 2]) =
    .ok (.decimal128 2 0) := by
  rw [ofName_decimal (by simp)]
  rfl

end DataType

end BatchPlan
