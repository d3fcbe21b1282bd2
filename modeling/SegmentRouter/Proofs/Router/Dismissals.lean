import SegmentRouter.Proofs.Router.Reachable
import SegmentRouter.Proofs.Tree.Removal

/-!
# Proofs/Router/Dismissals — a router's links end as they should

In every state of a router links can be dismissed by the domain of an end, by the interface that
opened them, and by their age; each way clears the domains of exactly those links
(`Reachable.clears_links`).
-/

namespace SegmentRouter.Router

variable {r : Router}

/-- **In every state of a router dismissing links removes exactly those that it should**, from all
tables, with their ports, and tells their number.  A second time there is nothing to remove. -/
theorem Reachable.clears_links (h : r.Reachable) :
    (∀ name, r.tree.Clears (·.dismissLinksOfDomain name)
      fun link => link.client.domain = name ∨ link.server.domain = name) ∧
    (∀ id, r.tree.Clears (·.dismissLinksOfInterface id) (·.origin = id)) ∧
    ∀ now limits, r.tree.Clears (·.ageLinks now limits)
      fun link => link.limit limits ≤ now - link.lastActivity :=
  have hsound := h.good.sound
  ⟨hsound.clears_dismissLinksOfDomain, hsound.clears_dismissLinksOfInterface,
    hsound.clears_ageLinks⟩

namespace Hairpin

theorem prefixLength_le : 24 ≤ 32 := by
  decide

/-- A domain whose hosts may ping each other through the router. -/
def config : Config :=
  let lan : Cidr := ⟨.ofOctets 10 0 1 1, 24, prefixLength_le⟩
  { domains := [
      { name := "lan", interface := some lan, icmp := [{ dst := lan, domain := "lan" }] }] }

theorem hasErrors_config : config.validate.hasErrors = false := by
  decide +kernel

/-- The router with an interface in the domain. -/
def attached : Router :=
  ((({} : Router).adopt config).value.attach "lan").value.2

/-- The router after a ping. -/
def router : Router :=
  let told := (attached.handle 0 (.frame ⟨0, 0⟩ Ping.announcement)).value.2
  (told.handle 0 (.frame ⟨0, 0⟩ Ping.request)).value.2

theorem reachable_router : router.Reachable :=
  .handle (.handle (.attach (.adopted hasErrors_config 0) "lan") 0 _) 0 _

end Hairpin

/-- A link with both ends in one domain is there twice, and is dismissed once. -/
theorem clears_links_hairpin : Hairpin.router.Reachable ∧
    (Hairpin.router.tree.byName? "lan").map (DomainTree.linksOf "lan") =
      some [("lan", 1), ("lan", 1)] ∧
    (Hairpin.router.tree.dismissLinksOfDomain "lan").value.1 = 1 := by
  have hclears := Hairpin.reachable_router.clears_links.1 "lan"
  refine ⟨Hairpin.reachable_router, by decide +kernel, hclears.removes.count.trans ?_⟩
  decide +kernel

end SegmentRouter.Router
