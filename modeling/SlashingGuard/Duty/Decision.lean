import SlashingGuard.Duty.Watermark

/-! # Decisions

    The slashing rules on one request, over history that has been loaded.

    Blocks, in order: below the slot floor is denied; at a slot with a block,
    only the same root is permitted.  Attestations, in order: a source behind
    the target is denied, then what lies below either epoch floor; at a target
    with an attestation only the same root is permitted; and no attestation
    may surround a recorded one or be surrounded by one. -/

namespace SlashingGuard

/-- Why a request is denied. -/
inductive DenialReason where
  | belowWatermark
  | doubleBlockProposal
  | doubleVote
  | surroundingVote
  | surroundedVote
  | sourceAfterTarget
  deriving DecidableEq, Repr

namespace DenialReason

/-- The word for a reason in messages and counters. -/
def label : DenialReason → String
  | .belowWatermark => "below_watermark"
  | .doubleBlockProposal => "double_block_proposal"
  | .doubleVote => "double_vote"
  | .surroundingVote => "surrounding_vote"
  | .surroundedVote => "surrounded_vote"
  | .sourceAfterTarget => "source_after_target"

def all : List DenialReason :=
  [.belowWatermark, .doubleBlockProposal, .doubleVote, .surroundingVote, .surroundedVote,
    .sourceAfterTarget]

/-- The reason that a word stands for. -/
def ofLabel? (word : String) : Option DenialReason :=
  all.find? fun reason => reason.label == word

end DenialReason

/-- The answer to a signing request. -/
inductive Decision where
  | permit
  | deny (reason : DenialReason)
  deriving DecidableEq, Repr

namespace Decision

def isPermitted : Decision → Bool
  | .permit => true
  | .deny _ => false

def reason? : Decision → Option DenialReason
  | .permit => none
  | .deny reason => some reason

end Decision

/-! ## Votes -/

/-- The epochs that an attestation links. -/
structure Vote where
  source : Epoch
  target : Epoch
  deriving DecidableEq, Repr

/-- Whether one vote strictly contains another: an earlier source and a later target. -/
def Vote.surrounds (outer inner : Vote) : Bool :=
  outer.source < inner.source && inner.target < outer.target

/-! ## Rules -/

/-- The rule on blocks below the floor. -/
def blockFloorDenial (watermark : Option Watermark) (slot : Slot) : Option DenialReason :=
  if watermark.any fun w => w.hidesBlock slot then some .belowWatermark else none

/-- The rules on the order of a vote's epochs and on votes below the floors. -/
def voteFloorDenial (watermark : Option Watermark) (vote : Vote) : Option DenialReason :=
  if vote.target < vote.source then some .sourceAfterTarget
  else if watermark.any fun w => w.hidesAttestation vote.source vote.target then
    some .belowWatermark
  else none

/-- The rule on a place that is taken: the same root may be signed again. -/
def resolveExisting (existing candidate : SigningRoot) (onConflict : DenialReason) : Decision :=
  if existing = candidate then .permit else .deny onConflict

end SlashingGuard
