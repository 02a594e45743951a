import Mathlib.Data.List.Nodup
import Mathlib.Logic.Function.Basic

namespace IntrusiveList

-- A list threaded through nodes that exist on their own: each node holds the
-- link to the one behind it.
structure Links (ν : Type) where
  head : Option ν
  next : ν → Option ν

def empty : Links ν := ⟨none,fun _ => none⟩

def push [DecidableEq ν] (links : Links ν) (node : ν) : Links ν :=
  ⟨some node,Function.update links.next node links.head⟩

def Leads (next : ν → Option ν) : Option ν → List ν → Prop
  | start,[] => start = none
  | start,node :: rest => start = some node ∧ Leads next (next node) rest

-- The loop `for (node = head; node; node = node->next)`, left at the first node
-- that passes the test. It is followed for `fuel` rounds; `none` if it is cut off.
def find (next : ν → Option ν) (test : ν → Option α) : Nat → Option ν → Option (Option α)
  | _,none => some none
  | 0,some _ => none
  | fuel+1,some node =>
    match test node with
    | some found => some (some found)
    | none => find next test fuel (next node)

-- The same loop with a body that is never left early.
def each [Monad m] (next : ν → Option ν) (cutOff : m Unit) (body : ν → m Unit) : Nat → Option ν → m Unit
  | _,none => pure ()
  | 0,some _ => cutOff
  | fuel+1,some node => do
    body node
    each next cutOff body fuel (next node)

theorem leads_update [DecidableEq ν] {next : ν → Option ν} (fresh : node ∉ nodes) :
    Leads (Function.update next node link) start nodes ↔ Leads next start nodes := by
  induction nodes generalizing start with
  | nil => rfl
  | cons first rest ih =>
    have other : first ≠ node := fun same => fresh (by simp [same])
    have later : node ∉ rest := fun member => fresh (by simp [member])
    simp only [Leads,Function.update_of_ne other,ih later]

theorem push_leads [DecidableEq ν] {links : Links ν} (fresh : node ∉ nodes) (leads : Leads links.next links.head nodes) :
    Leads (push links node).next (push links node).head (node :: nodes) := by
  refine ⟨rfl,?_⟩
  simp only [push,Function.update_self]
  exact (leads_update fresh).mpr leads

-- Pushing distinct new nodes one after the other puts them in front, the last
-- one first.
theorem pushes_leads [DecidableEq ν] {links : Links ν} (order : List ν) (distinct : (order.reverse ++ nodes).Nodup)
    (leads : Leads links.next links.head nodes) :
    Leads (order.foldl push links).next (order.foldl push links).head (order.reverse ++ nodes) := by
  induction order generalizing links nodes with
  | nil => exact leads
  | cons node rest ih =>
    have shape : (node :: rest).reverse ++ nodes = rest.reverse ++ node :: nodes := by simp
    rw [shape] at distinct ⊢
    have fresh : node ∉ nodes := (List.nodup_cons.mp (List.nodup_append.mp distinct).2.1).1
    exact ih distinct (push_leads fresh leads)

theorem find_leads {next : ν → Option ν} (test : ν → Option α) (leads : Leads next start nodes)
    (enough : nodes.length ≤ fuel) : find next test fuel start = some (nodes.findSome? test) := by
  induction nodes generalizing start fuel with
  | nil =>
    cases leads
    cases fuel <;> rfl
  | cons node rest ih =>
    obtain ⟨rfl,later⟩ := leads
    cases fuel with
    | zero => simp at enough
    | succ fuel =>
      have tail := ih later (by simpa using enough)
      simp only [find,List.findSome?_cons]
      cases test node with
      | none => exact tail
      | some found => rfl

theorem each_leads [Monad m] {next : ν → Option ν} (cutOff : m Unit) (body : ν → m Unit) (leads : Leads next start nodes)
    (enough : nodes.length ≤ fuel) :
    each next cutOff body fuel start = nodes.foldr (fun node rest => body node >>= fun _ => rest) (pure ()) := by
  induction nodes generalizing start fuel with
  | nil =>
    cases leads
    cases fuel <;> rfl
  | cons node rest ih =>
    obtain ⟨rfl,later⟩ := leads
    cases fuel with
    | zero => simp at enough
    | succ fuel => simp only [each,List.foldr_cons,ih later (by simpa using enough)]

end IntrusiveList
