import TextAnalysis.Unicode.Category

/-!
# Letters without their accents

The Latin letters between U+00C0 and U+024F and between U+1E00 and U+1EFF whose compatibility
decomposition, with the combining marks left out, is something else than the letter itself.
-/

set_option autoImplicit false

namespace TextAnalysis.Unicode

/-- A letter and what is left of its decomposition, one entry a word. -/
def unaccentedText : String :=
  "ÀA ÁA ÂA ÃA ÄA ÅA ÇC ÈE ÉE ÊE ËE ÌI ÍI ÎI ÏI ÑN ÒO ÓO ÔO ÕO ÖO ÙU ÚU ÛU ÜU ÝY àa áa âa ãa
   äa åa çc èe ée êe ëe ìi íi îi ïi ñn òo óo ôo õo öo ùu úu ûu üu ýy ÿy ĀA āa ĂA ăa ĄA ąa ĆC
   ćc ĈC ĉc ĊC ċc ČC čc ĎD ďd ĒE ēe ĔE ĕe ĖE ėe ĘE ęe ĚE ěe ĜG ĝg ĞG ğg ĠG ġg ĢG ģg ĤH ĥh ĨI
   ĩi ĪI īi ĬI ĭi ĮI įi İI ĲIJ ĳij ĴJ ĵj ĶK ķk ĹL ĺl ĻL ļl ĽL ľl ĿL· ŀl· ŃN ńn ŅN ņn ŇN ňn
   ŉʼn ŌO ōo ŎO ŏo ŐO őo ŔR ŕr ŖR ŗr ŘR řr ŚS śs ŜS ŝs ŞS şs ŠS šs ŢT ţt ŤT ťt ŨU ũu ŪU ūu ŬU
   ŭu ŮU ůu ŰU űu ŲU ųu ŴW ŵw ŶY ŷy ŸY ŹZ źz ŻZ żz ŽZ žz ſs ƠO ơo ƯU ưu ǄDZ ǅDz ǆdz ǇLJ ǈLj
   ǉlj ǊNJ ǋNj ǌnj ǍA ǎa ǏI ǐi ǑO ǒo ǓU ǔu ǕU ǖu ǗU ǘu ǙU ǚu ǛU ǜu ǞA ǟa ǠA ǡa ǢÆ ǣæ ǦG ǧg ǨK
   ǩk ǪO ǫo ǬO ǭo ǮƷ ǯʒ ǰj ǱDZ ǲDz ǳdz ǴG ǵg ǸN ǹn ǺA ǻa ǼÆ ǽæ ǾØ ǿø ȀA ȁa ȂA ȃa ȄE ȅe ȆE ȇe
   ȈI ȉi ȊI ȋi ȌO ȍo ȎO ȏo ȐR ȑr ȒR ȓr ȔU ȕu ȖU ȗu ȘS șs ȚT țt ȞH ȟh ȦA ȧa ȨE ȩe ȪO ȫo ȬO ȭo
   ȮO ȯo ȰO ȱo ȲY ȳy ḀA ḁa ḂB ḃb ḄB ḅb ḆB ḇb ḈC ḉc ḊD ḋd ḌD ḍd ḎD ḏd ḐD ḑd ḒD ḓd ḔE ḕe ḖE ḗe
   ḘE ḙe ḚE ḛe ḜE ḝe ḞF ḟf ḠG ḡg ḢH ḣh ḤH ḥh ḦH ḧh ḨH ḩh ḪH ḫh ḬI ḭi ḮI ḯi ḰK ḱk ḲK ḳk ḴK ḵk
   ḶL ḷl ḸL ḹl ḺL ḻl ḼL ḽl ḾM ḿm ṀM ṁm ṂM ṃm ṄN ṅn ṆN ṇn ṈN ṉn ṊN ṋn ṌO ṍo ṎO ṏo ṐO ṑo ṒO ṓo
   ṔP ṕp ṖP ṗp ṘR ṙr ṚR ṛr ṜR ṝr ṞR ṟr ṠS ṡs ṢS ṣs ṤS ṥs ṦS ṧs ṨS ṩs ṪT ṫt ṬT ṭt ṮT ṯt ṰT ṱt
   ṲU ṳu ṴU ṵu ṶU ṷu ṸU ṹu ṺU ṻu ṼV ṽv ṾV ṿv ẀW ẁw ẂW ẃw ẄW ẅw ẆW ẇw ẈW ẉw ẊX ẋx ẌX ẍx ẎY ẏy
   ẐZ ẑz ẒZ ẓz ẔZ ẕz ẖh ẗt ẘw ẙy ẚaʾ ẛs ẠA ạa ẢA ảa ẤA ấa ẦA ầa ẨA ẩa ẪA ẫa ẬA ậa ẮA ắa ẰA ằa
   ẲA ẳa ẴA ẵa ẶA ặa ẸE ẹe ẺE ẻe ẼE ẽe ẾE ếe ỀE ềe ỂE ểe ỄE ễe ỆE ệe ỈI ỉi ỊI ịi ỌO ọo ỎO ỏo
   ỐO ốo ỒO ồo ỔO ổo ỖO ỗo ỘO ộo ỚO ớo ỜO ờo ỞO ởo ỠO ỡo ỢO ợo ỤU ụu ỦU ủu ỨU ứu ỪU ừu ỬU ửu
   ỮU ữu ỰU ựu ỲY ỳy ỴY ỵy ỶY ỷy ỸY ỹy"

/-- Accented letters and their plain spelling. -/
def unaccented : List (Char × String) :=
  (Text.fields unaccentedText).filterMap fun entry =>
    match entry.toList with
    | [] => none
    | c :: plain => some (c, String.ofList plain)

end TextAnalysis.Unicode
