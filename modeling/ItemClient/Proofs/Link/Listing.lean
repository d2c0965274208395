import ItemClient.Link.Gateway

/-!
# Gateways that list requests

What a program sends, seen from outside: over a gateway that notes each request before it passes it
on (`Gateway.listing`), the requests are there afterwards, oldest first. Noting them changes nothing
else, so a PATCH over the listing gateway is the PATCH itself with its request added to the list
(`Gateway.listing_patch`).
-/

namespace ItemClient

variable {σ : Type}

/-- A world together with a list of requests. -/
def World.listed (world : World σ) (requests : List Request) : World (List Request × σ) :=
  { heap := world.heap, far := (requests, world.far) }

/-- Whether an accessor sends changes over the link. -/
def Accessor.isLinked : Accessor → Bool
  | custom _ => false
  | _ => true

namespace Gateway

/-- A gateway that lists the requests it is given, oldest first. -/
def listing (g : Gateway σ) : Gateway (List Request × σ) where
  send r world :=
    let (answer, sent) := g.send r { heap := world.heap, far := world.far.2 }
    (answer, { heap := sent.heap, far := (world.far.1 ++ [r], sent.far) })
  handOver collection id changes world :=
    let (answer, sent) :=
      g.handOver collection id changes { heap := world.heap, far := world.far.2 }
    (answer, { heap := sent.heap, far := (world.far.1, sent.far) })

theorem patch_of_linked {a : Accessor} (h : a.isLinked = true) (g : Gateway σ) :
    g.patch a = g.patchRow a.collection := by
  cases a with
  | custom collection => cases h
  | _ => rfl

theorem patch_of_not_linked {a : Accessor} (h : a.isLinked = false) (g : Gateway σ) :
    g.patch a = g.handOver a.collection := by
  cases a with
  | custom collection => rfl
  | _ => cases h

variable (g : Gateway σ) (a : Accessor) (collection id : String) (changes : ChangeSet)
  (world : World σ) (requests : List Request)

/-- Changes of a row are one request, and its answer says whether they are acknowledged. -/
theorem patchRow_eq :
    g.patchRow collection id changes world =
      ((g.send (.change collection id changes.toJson) world).1.bind Envelope.acknowledge,
        (g.send (.change collection id changes.toJson) world).2) := by
  unfold patchRow
  rcases g.send (.change collection id changes.toJson) world with ⟨_ | response, sent⟩ <;> rfl

theorem listing_patchRow :
    g.listing.patchRow collection id changes (world.listed requests) =
      ((g.patchRow collection id changes world).1,
        (g.patchRow collection id changes world).2.listed
          (requests ++ [.change collection id changes.toJson])) := by
  rw [patchRow_eq, patchRow_eq]
  rfl

/-- **A PATCH that is listed** is the PATCH, and its request if it goes over the link. -/
theorem listing_patch :
    g.listing.patch a id changes (world.listed requests) =
      ((g.patch a id changes world).1,
        (g.patch a id changes world).2.listed
          (requests ++
            if a.isLinked then [.change a.collection id changes.toJson] else [])) := by
  cases hlinked : a.isLinked with
  | true =>
    rw [patch_of_linked hlinked, patch_of_linked hlinked, if_pos rfl]
    exact g.listing_patchRow a.collection id changes world requests
  | false =>
    rw [patch_of_not_linked hlinked, patch_of_not_linked hlinked, if_neg Bool.false_ne_true,
      List.append_nil]
    rfl

/-- An accessor over the link sends one request to the row of its collection, any other none. -/
theorem listed_patch (listed : World (List Request × σ)) :
    (g.listing.patch a id changes listed).2.far.1 =
      listed.far.1 ++ if a.isLinked then [.change a.collection id changes.toJson] else [] :=
  congrArg (fun outcome => outcome.2.far.1)
    (g.listing_patch a id changes { heap := listed.heap, far := listed.far.2 } listed.far.1)

end Gateway

end ItemClient
