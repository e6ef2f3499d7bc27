import EspHosted.Cli.Microrl
import EspHosted.Lib.Words

/-!
# The tokens of a command line

`split` looks for the tokens in the first `limit` bytes, but a token is a C string and ends at
the next 0, wherever it is. When the line ends in the middle of a token, that token goes on
into what stands behind the line.
-/

namespace EspHosted

namespace CommandLine

open EspHosted.Bytes EspHosted.Words

/-- The words of a stored line. -/
def storedWords (line : List UInt8) : List (List UInt8) := words (fun c => decide (c = 0)) line

/-- The line ends in the middle of a word. -/
def EndsOpen (line : List UInt8) : Prop := line.getLast?.getD 0 ≠ 0

instance (line : List UInt8) : Decidable (EndsOpen line) := inferInstanceAs (Decidable (_ ≠ _))

/-- The strings that start in a line with the string `tail` behind it. -/
def tokens (tail line : List UInt8) : List (List UInt8) :=
  if EndsOpen line then storedWords (line ++ tail) else storedWords line

section Tokens

variable {tail line w : List UInt8}

@[simp] theorem tokens_nil (tail : List UInt8) : tokens tail [] = [] := by
  rw [tokens, if_neg (fun h => h rfl)]
  exact words_nil

theorem tokens_append_zero (tail w line : List UInt8) :
    tokens tail (w ++ 0 :: line) = storedWords w ++ tokens tail line := by
  cases line with
  | nil =>
      have hclosed : ¬ EndsOpen (w ++ [0]) := by
        rw [EndsOpen, List.getLast?_concat]
        exact fun h => h rfl
      rw [tokens, if_neg hclosed, tokens_nil, storedWords, words_append_cons w [] (by decide),
        words_nil]
      rfl
  | cons c line =>
      have hlast : (w ++ 0 :: c :: line).getLast? = (c :: line).getLast? := by
        rw [List.getLast?_append, List.getLast?_cons_cons, List.getLast?_cons]
        rfl
      have hsame : EndsOpen (w ++ 0 :: c :: line) ↔ EndsOpen (c :: line) := by
        rw [EndsOpen, EndsOpen, hlast]
      rw [tokens, tokens]
      by_cases hopen : EndsOpen (c :: line)
      · rw [if_pos (hsame.2 hopen), if_pos hopen, List.append_assoc, List.cons_append]
        exact words_append_cons w _ (by decide)
      · rw [if_neg (fun h => hopen (hsame.1 h)), if_neg hopen]
        exact words_append_cons w _ (by decide)

theorem tokens_zero_cons (tail line : List UInt8) : tokens tail (0 :: line) = tokens tail line := by
  have h := tokens_append_zero tail [] line
  rwa [List.nil_append, storedWords, words_nil, List.nil_append] at h

theorem tokens_zeros (tail : List UInt8) {z : List UInt8} (hz : ∀ c ∈ z, c = 0)
    (line : List UInt8) : tokens tail (z ++ line) = tokens tail line := by
  induction z with
  | nil => rfl
  | cons c z ih =>
      rw [List.cons_append, hz c List.mem_cons_self, tokens_zero_cons]
      exact ih fun d hd => hz d (List.mem_cons_of_mem c hd)

theorem storedWords_of_text (hw : 0 ∉ w) (hne : w ≠ []) : storedWords w = [w] :=
  words_of_forall hne fun _ hc => decide_eq_false fun h => hw (h ▸ hc)

theorem tokens_of_text (hw : 0 ∉ w) (hne : w ≠ []) (htail : 0 ∉ tail) :
    tokens tail w = [w ++ tail] := by
  have hopen : EndsOpen w := by
    rw [EndsOpen, List.getLast?_eq_some_getLast hne]
    exact fun h => hw (h ▸ List.getLast_mem hne)
  rw [tokens, if_pos hopen]
  refine storedWords_of_text ?_ (fun h => hne (List.append_eq_nil_iff.1 h).1)
  rw [List.mem_append, not_or]
  exact ⟨hw, htail⟩

/-- The tokens are the words of the line unless an open one has something behind it. -/
theorem tokens_eq_storedWords_iff (htail : 0 ∉ tail) :
    tokens tail line = storedWords line ↔ (EndsOpen line → tail = []) := by
  rw [tokens]
  split_ifs with hopen
  · refine ⟨fun heq _ => ?_, fun h => by rw [h hopen, List.append_nil]⟩
    have hflat := congrArg List.flatten heq
    rw [storedWords, storedWords, flatten_words, flatten_words, List.filter_append] at hflat
    have hnone : (tail.filter fun c => !decide (c = 0)) = [] :=
      List.append_right_eq_self.1 hflat
    rw [List.filter_eq_nil_iff] at hnone
    refine List.eq_nil_iff_forall_not_mem.2 fun c hc => hnone c hc ?_
    have hne : c ≠ 0 := fun h => htail (h ▸ hc)
    rw [decide_eq_false hne]
    rfl
  · exact iff_of_true rfl fun h => absurd h hopen

end Tokens

section Split

variable {p : UInt8 → Bool} {cmdline : List UInt8} {limit ind : ℕ}

theorem slice_eq_cons (hind : ind < limit) (hlimit : limit ≤ cmdline.length) :
    slice cmdline ind (limit - ind) =
      cmdline.getD ind 0 :: slice cmdline (ind + 1) (limit - (ind + 1)) := by
  have hlt : ind < cmdline.length := Nat.lt_of_lt_of_le hind hlimit
  have hcount : limit - ind = limit - (ind + 1) + 1 := by omega
  rw [slice, List.drop_eq_getElem_cons hlt, hcount, List.take_succ_cons,
    List.getD_eq_getElem?_getD, List.getElem?_eq_getElem hlt, Option.getD_some]
  rfl

theorem drop_slice (n : ℕ) :
    (slice cmdline ind (limit - ind)).drop n = slice cmdline (ind + n) (limit - (ind + n)) := by
  rw [slice, List.drop_take, List.drop_drop, Nat.sub_sub]
  rfl

/-- The loop passes the bytes with `p`. -/
theorem scanWhile_eq (hlimit : limit ≤ cmdline.length) {budget : ℕ} (hind : ind ≤ limit)
    (hbudget : limit ≤ ind + budget) :
    scanWhile p cmdline limit budget ind =
      ind + ((slice cmdline ind (limit - ind)).takeWhile p).length := by
  induction budget generalizing ind with
  | zero =>
      have hend : limit - ind = 0 := by omega
      rw [scanWhile, hend, slice, List.take_zero]
      rfl
  | succ budget ih =>
      rw [scanWhile]
      rcases Nat.lt_or_eq_of_le hind with hlt | hend
      · rw [slice_eq_cons hlt hlimit, List.takeWhile_cons]
        cases hp : p (cmdline.getD ind 0) with
        | true =>
            have hnext : ind + 1 ≤ limit := hlt
            rw [if_pos ⟨rfl, hlt⟩, ih hnext (by omega), if_pos rfl, List.length_cons]
            omega
        | false =>
            rw [if_neg (fun h => Bool.false_ne_true h.1), if_neg Bool.false_ne_true]
            rfl
      · rw [if_neg (fun h => absurd h.2 (by omega)), hend, Nat.sub_self, slice, List.take_zero]
        rfl

/-- Where the loop stops, the rest of the line is what it has not passed. -/
theorem slice_scanWhile (hlimit : limit ≤ cmdline.length) (hind : ind ≤ limit) :
    scanWhile p cmdline limit limit ind ≤ limit ∧
      slice cmdline (scanWhile p cmdline limit limit ind)
          (limit - scanWhile p cmdline limit limit ind) =
        (slice cmdline ind (limit - ind)).dropWhile p := by
  have hlength : (slice cmdline ind (limit - ind)).length = limit - ind :=
    length_slice (by omega)
  have hle := (List.takeWhile_sublist p (l := slice cmdline ind (limit - ind))).length_le
  rw [scanWhile_eq hlimit hind (Nat.le_add_left _ _)]
  refine ⟨by omega, ?_⟩
  rw [← drop_slice]
  nth_rewrite 2 [← List.takeWhile_append_dropWhile (p := p) (l := slice cmdline ind (limit - ind))]
  exact List.drop_left

theorem slice_append_drop (hind : ind ≤ limit) :
    slice cmdline ind (limit - ind) ++ cmdline.drop limit = cmdline.drop ind := by
  have hcount : limit = ind + (limit - ind) := by omega
  nth_rewrite 2 [hcount]
  rw [← List.drop_drop, slice, List.take_append_drop]

/-- The first token of a line that starts with one. -/
theorem tokens_word (hlimit : limit ≤ cmdline.length) (hind : ind < limit)
    (hstart : cmdline.getD ind 0 ≠ 0) :
    tokens (cstr (cmdline.drop limit)) (slice cmdline ind (limit - ind)) =
      cstr (cmdline.drop ind) ::
        tokens (cstr (cmdline.drop limit))
          (slice cmdline (scanWhile (· ≠ 0) cmdline limit limit ind)
            (limit - scanWhile (· ≠ 0) cmdline limit limit ind)) := by
  obtain ⟨hle, hrest⟩ := slice_scanWhile (p := (· ≠ 0)) hlimit (Nat.le_of_lt hind)
  obtain ⟨line, hline⟩ : ∃ line, slice cmdline ind (limit - ind) = line := ⟨_, rfl⟩
  have hword : 0 ∉ cstr line := zero_notMem_cstr line
  have hne : cstr line ≠ [] := by
    rw [← hline, slice_eq_cons hind hlimit, cstr_cons hstart]
    exact List.cons_ne_nil _ _
  have hsplit : cstr line ++ line.dropWhile (· ≠ 0) = line := List.takeWhile_append_dropWhile
  have hhead := List.head?_dropWhile_not (· ≠ 0) line
  rw [hrest, ← slice_append_drop (Nat.le_of_lt hind), hline]
  cases hbehind : line.dropWhile (· ≠ 0) with
  | nil =>
      rw [hbehind, List.append_nil] at hsplit
      rw [hsplit] at hword hne
      rw [tokens_nil, tokens_of_text hword hne (zero_notMem_cstr _), cstr_append hword]
  | cons c rest =>
      rw [hbehind] at hhead hsplit
      obtain rfl : c = 0 := by simpa using hhead
      have htoken : cstr (line ++ cmdline.drop limit) = cstr line := by
        rw [← hsplit, List.append_assoc, cstr_append hword, List.cons_append, cstr_zero_cons,
          List.append_nil, cstr_append hword, cstr_zero_cons, List.append_nil]
      rw [htoken, tokens_zero_cons]
      nth_rewrite 1 [← hsplit]
      rw [tokens_append_zero, storedWords_of_text hword hne]
      rfl

/-- `split` finds the tokens, or says that they are too many. -/
theorem splitLoop_eq (hlimit : limit ≤ cmdline.length) {room : ℕ} (hroom : 0 < room)
    (hind : ind ≤ limit) (tknArr : List ℕ) :
    (splitLoop cmdline limit room ind tknArr = none ∧
      room ≤ (tokens (cstr (cmdline.drop limit)) (slice cmdline ind (limit - ind))).length) ∨
    ∃ found, splitLoop cmdline limit room ind tknArr = some (tknArr ++ found) ∧
      found.map (fun ind => cstr (cmdline.drop ind)) =
        tokens (cstr (cmdline.drop limit)) (slice cmdline ind (limit - ind)) ∧
      (tokens (cstr (cmdline.drop limit)) (slice cmdline ind (limit - ind))).length < room := by
  induction room generalizing ind tknArr with
  | zero => exact absurd hroom (Nat.lt_irrefl 0)
  | succ room ih =>
      obtain ⟨hstart, hblanks⟩ := slice_scanWhile (p := (· = 0)) hlimit hind
      have hskip : tokens (cstr (cmdline.drop limit)) (slice cmdline ind (limit - ind)) =
          tokens (cstr (cmdline.drop limit))
            (slice cmdline (scanWhile (· = 0) cmdline limit limit ind)
              (limit - scanWhile (· = 0) cmdline limit limit ind)) := by
        rw [hblanks]
        nth_rewrite 1 [← List.takeWhile_append_dropWhile (p := (· = 0))
          (l := slice cmdline ind (limit - ind))]
        exact tokens_zeros _ (fun c hc => by simpa using List.mem_takeWhile_imp hc) _
      have hhead := List.head?_dropWhile_not (· = 0) (slice cmdline ind (limit - ind))
      rw [← hblanks] at hhead
      rw [splitLoop, hskip]
      generalize scanWhile (· = 0) cmdline limit limit ind = start at *
      by_cases hlt : start < limit
      · -- a token starts here
        rw [slice_eq_cons hlt hlimit] at hhead
        have hne : cmdline.getD start 0 ≠ 0 := by simpa using hhead
        rw [tokens_word hlimit hlt hne, if_pos hlt, List.length_cons]
        by_cases hfull : room = 0
        · rw [if_pos hfull]
          exact Or.inl ⟨rfl, by omega⟩
        rw [if_neg hfull]
        obtain ⟨hend, -⟩ := slice_scanWhile (p := (· ≠ 0)) hlimit (Nat.le_of_lt hlt)
        generalize scanWhile (· ≠ 0) cmdline limit limit start = stop at *
        by_cases hmore : stop < limit
        · rw [if_pos hmore]
          rcases ih (Nat.pos_of_ne_zero hfull) hend (tknArr ++ [start]) with
            ⟨hnone, hcount⟩ | ⟨found, hsome, hargv, hcount⟩
          · exact Or.inl ⟨hnone, by omega⟩
          · refine Or.inr ⟨start :: found, ?_, ?_, by omega⟩
            · rw [hsome, List.append_assoc]
              rfl
            · rw [List.map_cons, hargv]
        · rw [if_neg hmore]
          have hnil : slice cmdline stop (limit - stop) = [] := by
            rw [Nat.sub_eq_zero_of_le (Nat.le_of_not_lt hmore)]
            rfl
          rw [hnil, tokens_nil]
          exact Or.inr ⟨[start], rfl, rfl, by
            rw [List.length_nil]
            omega⟩
      · rw [if_neg hlt]
        have hnil : slice cmdline start (limit - start) = [] := by
          rw [Nat.sub_eq_zero_of_le (Nat.le_of_not_lt hlt)]
          rfl
        rw [hnil, tokens_nil]
        exact Or.inr ⟨[], by rw [List.append_nil], rfl, hroom⟩

end Split

end CommandLine

end EspHosted
