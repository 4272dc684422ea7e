import Sema.Diagnostic.Basic
import Sema.Ty

/-! # Checks

A check reports diagnostics and comes to a result, or to a fault that ends it. What it reported
before the fault stands.
-/

namespace Sema

structure Check (α : Type) where
  reports : List Diagnostic
  outcome : Except Fault α

namespace Check

variable {α β : Type}

instance : Monad Check where
  pure a := ⟨[], .ok a⟩
  bind c f :=
    match c.outcome with
    | .ok a => ⟨c.reports ++ (f a).reports, (f a).outcome⟩
    | .error why => ⟨c.reports, .error why⟩

@[simp] theorem pure_def (a : α) : (pure a : Check α) = ⟨[], .ok a⟩ := rfl

@[simp] theorem bind_ok (rs : List Diagnostic) (a : α) (f : α → Check β) :
    (⟨rs, .ok a⟩ : Check α) >>= f = ⟨rs ++ (f a).reports, (f a).outcome⟩ := rfl

@[simp] theorem bind_error (rs : List Diagnostic) (why : Fault) (f : α → Check β) :
    (⟨rs, .error why⟩ : Check α) >>= f = ⟨rs, .error why⟩ := rfl

instance : LawfulMonad Check := LawfulMonad.mk' Check
  (by rintro α ⟨rs, _ | a⟩ <;> simp [Functor.map])
  (by intro α β a f; simp)
  (by rintro α β γ ⟨rs, _ | a⟩ f g
      · simp
      · simp only [bind_ok]
        rcases f a with ⟨ss, _ | b⟩ <;> simp)

def stop (fault : Fault) : Check α := ⟨[], .error fault⟩

def report (d : Diagnostic) : Check Unit := ⟨[d], .ok ()⟩

/-- Blames the position in the given words and yields the error type. -/
def blameFor (kind : DiagnosticKind) (pos : Pos) (message : String) : Check Ty :=
  ⟨[⟨pos, message, some kind⟩], .ok .error⟩

/-- Blames the position in the kind's words and yields the error type. -/
def blame (kind : DiagnosticKind) (pos : Pos) : Check Ty := blameFor kind pos kind.message

def ofExcept (outcome : Except Fault α) : Check α := ⟨[], outcome⟩

end Check

end Sema
