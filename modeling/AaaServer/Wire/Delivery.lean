import AaaServer.Wire.Pair

namespace freeradius

section Delivery

variable {packet encoded taken signed received verified : RADIUS_PACKET} {original requested : Option RADIUS_PACKET}
  {secret data : List UInt8} {attributes others : List WireAttribute} {vps sent before after : List VALUE_PAIR}
  {vp : VALUE_PAIR} {offset : Int} {place fr_max_attributes : Nat} {flags : Bool}
  {dict_attrbyvalue : UInt8 → Option DICT_ATTR}

end Delivery

end freeradius
