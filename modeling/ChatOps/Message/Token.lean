/-
Tokens: the words of a message, each with its place among them.
-/
import ChatOps.Text.Words

namespace ChatOps

open Text

/-- A word of a message and the number of words before it. -/
structure Token where
  text : String
  position : Nat
deriving DecidableEq, Repr

/-- The words of a message, counted from zero. -/
def tokenize (message : String) : List Token :=
  (words message.toList).zipIdx.map fun (w, i) => ⟨String.ofList w, i⟩

/-- The texts of the tokens are the words of the message. -/
theorem map_text_tokenize (message : String) :
    (tokenize message).map Token.text = (words message.toList).map String.ofList := by
  simp only [tokenize, List.map_map]
  rw [show (Token.text ∘ fun (w, i) => (⟨String.ofList w, i⟩ : Token)) = String.ofList ∘ Prod.fst
    from rfl, ← List.map_map, List.zipIdx_map_fst]

/-- The positions of the tokens count up from zero. -/
theorem map_position_tokenize (message : String) :
    (tokenize message).map Token.position = List.range (words message.toList).length := by
  simp only [tokenize, List.map_map]
  rw [show (Token.position ∘ fun (w, i) => (⟨String.ofList w, i⟩ : Token)) = Prod.snd from rfl,
    List.zipIdx_map_snd, List.range_eq_range']

end ChatOps
