import StakeSnapshot.Json.Reader
import StakeSnapshot.Json.Writer
import Mathlib.Data.List.Forall2
import Mathlib.Tactic.SplitIfs

/-!
# Texts in JSON

A text between quotes is read back as it was, whatever characters it has: each of them is written so
that it is read as one part, and none is taken for half of a pair.
-/

namespace StakeSnapshot.Json

variable {start : Nat} {rest after : List Char} {ps : List Piece}

theorem readPieces_escape {c d : Char} (hc : c ≠ 'u') (hd : escapeOf? c = some d)
    (h : readPieces start rest = .ok (ps, after)) :
    readPieces start ('\\' :: c :: rest) = .ok (.char d :: ps, after) := by
  rw [readPieces.eq_5 start c rest fun _ _ _ _ _ _ hu _ => hc hu, if_neg hc, hd]
  dsimp only
  rw [h]
  rfl

theorem readPieces_unicode {a b c d e : Char} {n : Nat} (hn : ofHex4? a b c d = some n)
    (h : readPieces start (e :: rest) = .ok (ps, after)) :
    readPieces start ('\\' :: 'u' :: a :: b :: c :: d :: e :: rest) = .ok (.code n :: ps, after) := by
  rw [readPieces.eq_4, hn]
  dsimp only
  rw [h]
  rfl

theorem readPieces_plain {c : Char} (hquote : c ≠ '"') (hslash : c ≠ '\\') (hc : ¬ c.toNat < 32)
    (h : readPieces start rest = .ok (ps, after)) :
    readPieces start (c :: rest) = .ok (.char c :: ps, after) := by
  rw [readPieces.eq_6 start c rest hquote (fun hc _ => hslash hc)
    (fun _ _ _ _ _ _ hc _ => hslash hc) fun _ _ hc _ => hslash hc, if_neg hc, h]
  rfl

/-- Four hexadecimal digits are read as the number they are written for. -/
theorem ofHex4?_hexPadded {n : Nat} (hn : n < 65536) :
    ∃ a b c d, Text.hexPadded 4 n = [a, b, c, d] ∧ ofHex4? a b c d = some n := by
  refine ⟨_, _, _, _, rfl, ?_⟩
  simp only [ofHex4?, Text.hexValue?_hexDigit _ (Nat.mod_lt _ (by decide : 0 < 16))]
  refine congrArg some ?_
  omega

/-- A character is written behind a backslash, by number, or as it is. -/
theorem escaped_cases (c : Char) :
    (∃ letter, escaped c = ['\\', letter] ∧ letter ≠ 'u' ∧ escapeOf? letter = some c) ∨
    (escaped c = '\\' :: 'u' :: Text.hexPadded 4 c.toNat ∧ c.toNat < 32) ∨
    (escaped c = [c] ∧ c ≠ '"' ∧ c ≠ '\\' ∧ ¬ c.toNat < 32) := by
  have hnumber : ∀ n, c.toNat = n → Char.ofNat n = c := fun n hn => hn ▸ Char.ofNat_toNat c
  unfold escaped
  split_ifs with hself hline hreturn htab hback hfeed hcontrol
  · rcases hself with rfl | rfl
    · exact .inl ⟨_, rfl, by decide, rfl⟩
    · exact .inl ⟨_, rfl, by decide, rfl⟩
  · exact .inl ⟨_, rfl, by decide, congrArg some hline.symm⟩
  · exact .inl ⟨_, rfl, by decide, congrArg some hreturn.symm⟩
  · exact .inl ⟨_, rfl, by decide, congrArg some htab.symm⟩
  · exact .inl ⟨_, rfl, by decide, congrArg some (hnumber 8 hback)⟩
  · exact .inl ⟨_, rfl, by decide, congrArg some (hnumber 12 hfeed)⟩
  · exact .inr (.inl ⟨rfl, hcontrol⟩)
  · exact .inr (.inr ⟨rfl, fun h => hself (.inl h), fun h => hself (.inr h), hcontrol⟩)

/-- A part that stands for a character by itself. -/
def Piece.IsFor (p : Piece) (c : Char) : Prop := p = .char c ∨ p = .code c.toNat ∧ c.toNat < 32

/-- A character is read as it is written, in front of the rest of a text. -/
theorem readPieces_escaped (c : Char) (hrest : rest ≠ [])
    (h : readPieces start rest = .ok (ps, after)) :
    ∃ p : Piece, p.IsFor c ∧ readPieces start (escaped c ++ rest) = .ok (p :: ps, after) := by
  rcases escaped_cases c with ⟨letter, hform, hletter, hc⟩ | ⟨hform, hc⟩ |
    ⟨hform, hquote, hslash, hc⟩
  · rw [hform]
    exact ⟨_, .inl rfl, readPieces_escape hletter hc h⟩
  · obtain ⟨x, y, z, w, hdigits, hvalue⟩ := ofHex4?_hexPadded (n := c.toNat) (by omega)
    obtain ⟨e, t, rfl⟩ := List.exists_cons_of_ne_nil hrest
    rw [hform, hdigits]
    exact ⟨_, .inr ⟨rfl, hc⟩, readPieces_unicode hvalue h⟩
  · rw [hform]
    exact ⟨_, .inl rfl, readPieces_plain hquote hslash hc h⟩

/-- Parts that stand for their characters by themselves are not joined. -/
theorem joined_of_isFor {cs : List Char} (h : List.Forall₂ Piece.IsFor ps cs) :
    joined none ps = cs.map .char ∧
      ∀ n < 32, joined (some n) ps = .char (Char.ofNat n) :: cs.map .char := by
  have hsmall : ∀ n < 32, CodePoint.ofNat n = .char (Char.ofNat n) := by decide
  induction h with
  | nil => exact ⟨rfl, fun n hn => congrArg (fun p => [p]) (hsmall n hn)⟩
  | cons hp hps ih =>
    obtain ⟨hnone, hsome⟩ := ih
    rcases hp with rfl | ⟨rfl, hc⟩
    · refine ⟨congrArg _ hnone, fun n hn => ?_⟩
      rw [joined, hnone, hsmall n hn, List.map_cons]
    · refine ⟨?_, fun n hn => ?_⟩
      · rw [joined, hsome _ hc, Char.ofNat_toNat, List.map_cons]
      · have hpair : ∀ m, isPair n m = false := fun m => by
          simp [isPair, show ¬ 0xd800 ≤ n by omega]
        rw [joined, hpair, if_neg Bool.false_ne_true, hsome _ hc, hsmall n hn, Char.ofNat_toNat,
          List.map_cons]

/-- What is written for a text up to its closing quote is read back. -/
theorem readText_escaped (start : Nat) (s rest : List Char) :
    readText start (s.flatMap escaped ++ '"' :: rest) = .ok (s.map .char, rest) := by
  have hpieces : ∃ ps, readPieces start (s.flatMap escaped ++ '"' :: rest) = .ok (ps, rest) ∧
      List.Forall₂ Piece.IsFor ps s := by
    induction s with
    | nil => exact ⟨[], rfl, .nil⟩
    | cons c s ih =>
      obtain ⟨ps, hread, hps⟩ := ih
      have hne : s.flatMap escaped ++ '"' :: rest ≠ [] := by simp
      obtain ⟨p, hp, hread⟩ := readPieces_escaped c hne hread
      refine ⟨p :: ps, ?_, .cons hp hps⟩
      rw [List.flatMap_cons, List.append_assoc]
      exact hread
  obtain ⟨ps, hread, hps⟩ := hpieces
  rw [readText, hread]
  exact congrArg (fun cs => Except.ok (cs, rest)) (joined_of_isFor hps).1

end StakeSnapshot.Json
