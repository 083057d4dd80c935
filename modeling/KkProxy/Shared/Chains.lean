import Mathlib.Data.Fintype.EquivFin
import Mathlib.Data.Set.Finite.Basic
import Mathlib.Logic.Relation

set_option autoImplicit false

namespace KkProxy.Chains

open Relation

variable {α : Type} {R : α → α → Prop} {root : α}

end KkProxy.Chains
