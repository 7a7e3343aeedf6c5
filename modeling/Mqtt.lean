import Mqtt.Outbox
import Mqtt.Proofs.Codec.Acceptance
import Mqtt.Proofs.Codec.Interchange
import Mqtt.Proofs.Codec.Limit
import Mqtt.Proofs.Codec.Refusal
import Mqtt.Proofs.Codec.Sending
import Mqtt.Proofs.Codec.Tight
import Mqtt.Proofs.Codec.TopicFilter
import Mqtt.Proofs.Codec.Waiting
import Mqtt.Proofs.Element.Assignment
import Mqtt.Proofs.Packet.Atomic
import Mqtt.Proofs.Property.Checks
import Mqtt.Proofs.Property.RoundTrip
import Mqtt.Proofs.Wire.Continuation
import Mqtt.Proofs.Wire.Text
