import Mathlib.Data.List.Chain
import Mathlib.Tactic.Common

/-! Longest-match lexing by an automaton. A lexeme carries the run that read it; a text
lexes to a list of lexemes when each of them stops where the next one begins. -/

/-- Where to begin on a first symbol, how to read on, and which states end a lexeme. -/
structure Lexer (α σ : Type) where
  start : α → σ
  step : σ → α → Option σ
  accept : σ → Bool

namespace Lexer

variable {α σ : Type} (L : Lexer α σ)

def run (s : σ) : List α → Option σ
  | [] => some s
  | x :: xs => (L.step s x).bind (run · xs)

@[simp] theorem run_nil (s : σ) : L.run s [] = some s := rfl

@[simp] theorem run_cons (s : σ) (x : α) (xs : List α) :
    L.run s (x :: xs) = (L.step s x).bind (L.run · xs) := rfl

theorem run_append (s : σ) (xs ys : List α) :
    L.run s (xs ++ ys) = (L.run s xs).bind (L.run · ys) := by
  induction xs generalizing s with
  | nil => rfl
  | cons x xs ih => cases h : L.step s x <;> simp [h,ih]

structure Lexeme where
  first : α
  rest : List α
  final : σ
  reads : L.run (L.start first) rest = some final
  accepts : L.accept final = true

variable {L}

def Lexeme.raw (t : L.Lexeme) : List α := t.first :: t.rest

def text (ls : List L.Lexeme) : List α := ls.flatMap Lexeme.raw

@[simp] theorem text_nil : text ([] : List L.Lexeme) = [] := rfl

@[simp] theorem text_cons (t : L.Lexeme) (ls : List L.Lexeme) :
    text (t :: ls) = t.raw ++ text ls := rfl

@[simp] theorem text_append (ls ms : List L.Lexeme) : text (ls ++ ms) = text ls ++ text ms :=
  List.flatMap_append

theorem head?_text (ls : List L.Lexeme) : (text ls).head? = ls.head?.map Lexeme.first := by
  cases ls <;> simp [Lexeme.raw]

/-- `u` may follow `t`: its first symbol does not continue `t`. -/
def Follows (t u : L.Lexeme) : Prop := L.step t.final u.first = none

/-- Each lexeme is as long as it can be. -/
def Maximal (ls : List L.Lexeme) : Prop := ls.IsChain Follows

variable (L) in
def Lexes (xs : List α) (ls : List L.Lexeme) : Prop := Maximal ls ∧ text ls = xs

theorem Maximal.append {ls ms : List L.Lexeme} (hl : Maximal ls) (hm : Maximal ms)
    (hb : ∀ t ∈ ls.getLast?, ∀ y ∈ (text ms).head?, L.step t.final y = none) :
    Maximal (ls ++ ms) := by
  refine List.isChain_append.mpr ⟨hl,hm,fun t ht u hu => hb t ht u.first ?_⟩
  rw [head?_text,hu]
  rfl

theorem maximal_singleton (t : L.Lexeme) : Maximal [t] := List.isChain_singleton t

/-- Read as far as the automaton goes. -/
def munch (L : Lexer α σ) (s : σ) : List α → List α × σ × List α
  | [] => ([],s,[])
  | x :: xs =>
    match L.step s x with
    | none => ([],s,x :: xs)
    | some s' => let m := munch L s' xs; (x :: m.1,m.2)

theorem munch_run (s : σ) (xs : List α) : L.run s (L.munch s xs).1 = some (L.munch s xs).2.1 := by
  induction xs generalizing s with
  | nil => rfl
  | cons x xs ih => cases h : L.step s x <;> simp [munch,h,ih]

theorem munch_append (s : σ) (xs : List α) :
    (L.munch s xs).1 ++ (L.munch s xs).2.2 = xs := by
  induction xs generalizing s with
  | nil => rfl
  | cons x xs ih => cases h : L.step s x <;> simp [munch,h,ih]

theorem munch_stops (s : σ) (xs : List α) :
    ∀ y ∈ (L.munch s xs).2.2.head?, L.step (L.munch s xs).2.1 y = none := by
  induction xs generalizing s with
  | nil => simp [munch]
  | cons x xs ih =>
    cases h : L.step s x with
    | none => simp [munch,h]
    | some s' => simpa [munch,h] using ih s'

theorem munch_eq {s s' : σ} {raw rest : List α} (hrun : L.run s raw = some s')
    (hstop : ∀ y ∈ rest.head?, L.step s' y = none) :
    L.munch s (raw ++ rest) = (raw,s',rest) := by
  induction raw generalizing s with
  | nil =>
    obtain rfl := Option.some.inj hrun
    cases rest with
    | nil => rfl
    | cons y ys => simp [munch,hstop y rfl]
  | cons x raw ih =>
    obtain ⟨t,ht,htrun⟩ := Option.bind_eq_some_iff.mp hrun
    simp [munch,ht,ih htrun]

def lexWithin (L : Lexer α σ) : ℕ → List α → Option (List L.Lexeme)
  | _, [] => some []
  | 0, _ :: _ => none
  | n+1, x :: xs =>
    let m := L.munch (L.start x) xs
    if h : L.accept m.2.1 = true then
      (lexWithin L n m.2.2).map (⟨x,m.1,m.2.1,munch_run _ _,h⟩ :: ·)
    else none

def lex (L : Lexer α σ) (xs : List α) : Option (List L.Lexeme) := L.lexWithin xs.length xs

theorem lexes_of_lexWithin {n : ℕ} {xs : List α} {ls : List L.Lexeme}
    (h : L.lexWithin n xs = some ls) : L.Lexes xs ls := by
  induction n generalizing xs ls with
  | zero =>
    cases xs with
    | nil => cases h; exact ⟨List.isChain_nil,rfl⟩
    | cons x xs => cases h
  | succ n ih =>
    cases xs with
    | nil => cases h; exact ⟨List.isChain_nil,rfl⟩
    | cons x xs =>
      simp only [lexWithin] at h
      split at h
      · obtain ⟨ms,hms,rfl⟩ := Option.map_eq_some_iff.mp h
        obtain ⟨hmax,htext⟩ := ih hms
        refine ⟨List.isChain_cons.mpr ⟨fun u hu => munch_stops _ xs u.first ?_,hmax⟩,?_⟩
        · rw [← htext,head?_text,hu]
          rfl
        · simp [Lexeme.raw,htext,munch_append]
      · cases h

theorem lexWithin_text {ls : List L.Lexeme} (h : Maximal ls) {n : ℕ}
    (hn : (text ls).length ≤ n) : L.lexWithin n (text ls) = some ls := by
  induction ls generalizing n with
  | nil => cases n <;> rfl
  | cons t ls ih =>
    obtain ⟨hb,hmax⟩ := List.isChain_cons.mp h
    cases n with
    | zero => simp [Lexeme.raw] at hn
    | succ n =>
      have hlen : (text ls).length ≤ n := by simp [Lexeme.raw] at hn; omega
      have hm : L.munch (L.start t.first) (t.rest ++ text ls) = (t.rest,t.final,text ls) := by
        refine munch_eq t.reads fun y hy => ?_
        rw [head?_text] at hy
        obtain ⟨u,hu,rfl⟩ := Option.map_eq_some_iff.mp hy
        exact hb u hu
      simp [Lexeme.raw,lexWithin,hm,t.accepts,ih hmax hlen]

/-- The lexer finds the lexing of a text, if there is one. -/
theorem lex_eq_some_iff {xs : List α} {ls : List L.Lexeme} :
    L.lex xs = some ls ↔ L.Lexes xs ls := by
  refine ⟨lexes_of_lexWithin,?_⟩
  rintro ⟨hmax,rfl⟩
  exact lexWithin_text hmax le_rfl

end Lexer
