import TraderBackend.Lib.JsString

/-!
# Checks of request parameters

The regular expressions of `packages/utils/src/utils.ts` that both services check an address and a
symbol with.

* `isValidAddress`, `isValidPerpSymbol` — the checks.
* `bind_eq_ok`, `mapError_eq_ok` — a handler that answers has passed each of its checks.
-/

namespace TraderBackend

open JsString

/-- `isValidAddress`: the expression is not anchored at its end. -/
def isValidAddress (addr : String) : Bool :=
  match addr.toList with
  | '0' :: 'x' :: digits =>
      decide (40 ≤ digits.length) && (digits.take 40).all fun c =>
        ('a' ≤ c && c ≤ 'f') || ('A' ≤ c && c ≤ 'F') || ('0' ≤ c && c ≤ '9')
  | _ => false

/-- `[a-zA-Z]`. -/
def isLetter (c : Char) : Bool := ('a' ≤ c && c ≤ 'z') || ('A' ≤ c && c ≤ 'Z')

/-- `isValidPerpSymbol`. -/
def isValidPerpSymbol (input : String) : Bool :=
  match input.toList.splitOn '-' with
  | [base, quote, pool] =>
      !base.isEmpty && !quote.isEmpty && !pool.isEmpty &&
        base.all (fun c => isLetter c || ('0' ≤ c && c ≤ '9') || c == '_') &&
        quote.all isLetter && pool.all isLetter
  | _ => false

theorem bind_eq_ok {ε α β : Type} {x : Except ε α} {f : α → Except ε β} {b : β}
    (h : x.bind f = .ok b) : ∃ a, x = .ok a ∧ f a = .ok b := by
  cases x with
  | error e => cases h
  | ok a => exact ⟨a, rfl, h⟩

theorem mapError_eq_ok {ε ε' α : Type} {x : Except ε α} {f : ε → ε'} {a : α}
    (h : x.mapError f = .ok a) : x = .ok a := by
  cases x with
  | error e => cases h
  | ok a' =>
    cases h
    rfl

end TraderBackend
